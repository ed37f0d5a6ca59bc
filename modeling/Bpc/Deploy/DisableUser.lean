/-
  DISABLING A USER — is it final?

  Not if a login, a registration or a heartbeat overlaps that read the old records
  (`overlap_reenables`). It is if no such write is stale (`NoStaleWrite`): what the request sees
  SHOWS that a Device is settled (`Shows`), what is shown stays true, and its history accounts for
  every Device.
-/
import Bpc.Deploy.Revocation

namespace Bpc.Deploy

open SlashPath Controlplane Interaction

variable {Data : Type} (P : Runtime Data)

/-! ## The condition -/

/-- The User has the `enabled` field that the request has read. -/
def UserUnmoved (content : Content Data) (past : History Data) (u : Str) : Prop :=
  ∀ r, ReadRecord P past .users u r →
    ∃ now, recordAt P content .users u = some now ∧ now["enabled".toList]? = r["enabled".toList]?

/-- An acknowledged write that disables the User. -/
def DisableEvent (u : Str) (e : Event (Req Data) Ans) : Prop :=
  ∃ r revision, e = ⟨.mutate "PutCanonicalRecord"
    [putOp (recordKey .users u) (P.dumps r)], .ok revision⟩ ∧
    r["enabled".toList]? = some (.bool false)

/-- What may undo the disabling writes only what is still so. -/
structure Current (u : Str) (content : Content Data) (past : History Data) (kind : Str)
    (op : Operation Data) : Prop where
  /-- An enabled User put without a digest is as it was read. -/
  user : ∀ r, op = putOp (recordKey .users u) (P.dumps r) → userEnabled r = true →
    UserUnmoved P content past u
  /-- A new Device of the User: the User is as the request has read it. -/
  registered : kind = "RegisterDevice" →
    ∀ x r, op = putOp (recordKey .devices x) (P.dumps r) → P.strField r "user_id" = u →
      UserUnmoved P content past u
  /-- A Device of the User that is put back is as it was read. -/
  refreshed : kind = "DeviceHeartbeat" ∨ kind = "UpdateRegisteredDevice" →
    ∀ x r, op = putOp (recordKey .devices x) (P.dumps r) → P.strField r "user_id" = u →
      Unmoved P content past x

/-- Once request `i` has disabled the User, no write is stale. -/
def NoStaleWrite (i : Nat) (u : Str) (c : Requests Data) (m : Move Job Oracle) : Prop :=
  (∃ t, c.threads[i]? = some t ∧ ∃ e ∈ t.past, DisableEvent P u e) →
    ∀ past kind ops, c.Calls m past (.mutate kind ops) →
      ∀ op ∈ ops, Current P u c.world.content past kind op

/-! ## What stays true -/

/-- The User record has `enabled = false`. -/
def UserOff (content : Content Data) (u : Str) : Prop :=
  ∃ r, recordAt P content .users u = some r ∧ r["enabled".toList]? = some (.bool false)

theorem not_enabled_of_false {r : Record} (h : r["enabled".toList]? = some (.bool false)) :
    userEnabled r = false := by
  unfold userEnabled Record.get
  rw [h]
  rfl

theorem userEnabled_congr {r r' : Record} (h : r["enabled".toList]? = r'["enabled".toList]?) :
    userEnabled r = userEnabled r' := by
  unfold userEnabled Record.get
  rw [h]

section

variable {P} {c : Requests Data} {u : Str} {i : Nat} {o : Oracle} {job : Job} {r : Req Data}
  {k : Ans r → Handler Data Outcome} {past : History Data} {a : Ans r} {w : World Data}

theorem UserOff.not_enabled (hoff : UserOff P c.world.content u)
    (h : UserUnmoved P c.world.content past u) {user : Record}
    (hread : ReadRecord P past .users u user) : userEnabled user = false := by
  obtain ⟨now, hnow, henabled⟩ := hoff
  obtain ⟨now', hnow', hsame⟩ := h user hread
  obtain rfl := Option.some.inj (hnow.symm.trans hnow')
  exact (userEnabled_congr hsame).symm.trans (not_enabled_of_false henabled)

theorem userOff_step (hdigest : Distinguishes P c.world.content past) (hs : Sound P c)
    (ht : c.threads[i]? = some ⟨job, .call r k, past⟩)
    (h : perform P c.world o r = some (a, w)) (hu : '/' ∉ u)
    (hcurrent : ∀ kind ops, r = .mutate kind ops →
      ∀ op ∈ ops, Current P u c.world.content past kind op)
    (hoff : UserOff P c.world.content u) : UserOff P w.content u := by
  obtain hsame | ⟨kind, ops, rec, digest, hr, hop, _, hwrite, hpre, hrec⟩ :=
    user_of_perform (hs.obeys.must ht) h hu
  · obtain ⟨now, hnow, henabled⟩ := hoff
    exact ⟨now, hsame.trans hnow, henabled⟩
  · refine ⟨rec, hrec, ?_⟩
    cases hwrite with
    | disabled henabled => exact henabled
    | rehashed _ hread hon henabled =>
      -- the login read the User as enabled, so its write would be stale
      have hrec' : userEnabled rec = true := (userEnabled_congr henabled).trans hon
      have hunmoved := (hcurrent kind ops hr _ hop).user rec rfl hrec'
      cases hon.symm.trans (hoff.not_enabled hunmoved hread)
    | @replaced old _ data hread hdata henabled =>
      -- the digest pins the committed bytes to those that were read
      obtain ⟨v, hv, hequal⟩ := digest_of_precondition hpre (P.sha256Hex_ne data)
      have hsame : v = data := hdigest _ v data hv hread (hequal.trans (P.sha256Hex_lower data))
      obtain ⟨now, hnow, hfalse⟩ := hoff
      have hnow' : recordAt P c.world.content .users u = recordOf P (some data) := by
        rw [← hsame]
        exact congrArg (recordOf P) hv
      obtain rfl := Option.some.inj (hnow.symm.trans (hnow'.trans hdata))
      exact henabled.trans hfalse

theorem owner_of_standing {r r' : Record} (h : standing r = standing r') :
    P.strField r "user_id" = P.strField r' "user_id" := by
  unfold Runtime.strField Record.get
  rw [(Prod.mk.inj h).1]

/-- **One call keeps a Device settled**, as long as the User is disabled. -/
theorem settled_step (hs : Sound P c) (ht : c.threads[i]? = some ⟨job, .call r k, past⟩)
    (h : perform P c.world o r = some (a, w))
    (hcurrent : ∀ kind ops, r = .mutate kind ops →
      ∀ op ∈ ops, Current P u c.world.content past kind op)
    (hoff : UserOff P c.world.content u) {x : Str} (hx : '/' ∉ x)
    (hsettled : Settled P u (recordAt P c.world.content .devices x)) :
    Settled P u (recordAt P w.content .devices x) := by
  obtain hsame | ⟨kind, ops, rec, hr, hop, _, hwrite, hrec⟩ :=
    device_of_perform (hs.obeys.must ht) h hx
  · rw [hsame]
    exact hsettled
  · rw [hrec]
    intro rec' hrec' howner
    obtain rfl := Option.some.inj hrec'
    cases hwrite with
    | registered hkind _ huser henabled =>
      rw [howner] at huser
      have hunmoved := (hcurrent kind ops hr _ hop).registered hkind x rec rfl howner
      cases henabled.symm.trans (hoff.not_enabled hunmoved huser)
    | refreshed hkind hread hstanding =>
      obtain ⟨now, hnow, hsame⟩ :=
        (hcurrent kind ops hr _ hop).refreshed hkind x rec rfl howner _ hread
      have hsame' : standing rec = standing now := hstanding.trans hsame.symm
      rw [deviceIsActive_of_standing hsame']
      exact hsettled now hnow ((owner_of_standing hsame').symm.trans howner)
    | deactivated _ henabled => exact not_active_of_enabled henabled

/-! ## What the events show -/

theorem settled_of_shows (h : perform P c.world o r = some (a, w)) {x : Str} (hx : '/' ∉ x)
    (hshows : Shows P u x ⟨r, a⟩) : Settled P u (recordAt P w.content .devices x) := by
  cases r with
  | glob d =>
    obtain ⟨rfl, hunlisted⟩ := hshows
    obtain ⟨_, rfl⟩ := perform_glob h
    have habsent : c.world.content.canonical[recordKey .devices x]? = none := by
      by_contra hpresent
      exact hunlisted (listed_of_glob hx h hpresent)
    rw [recordAt, habsent]
    exact fun r hr => by cases hr
  | readFile path =>
    obtain ⟨rfl, hsettled⟩ := hshows
    obtain ⟨rfl, rfl⟩ := perform_readFile (isReplicated_recordKey .devices x) h
    exact hsettled
  | mutate kind operations =>
    cases a with
    | error e => exact hshows.elim
    | ok revision =>
      obtain ⟨rec, rfl, hsettled⟩ := hshows
      rw [recordAt, file_of_ack (stable_recordKey .devices hx) h, recordOf_dumps]
      exact hsettled
  | _ => exact hshows.elim

end

/-! ## The run -/

/-- The User is disabled, and what was seen of a Device holds. -/
def Fenced (u : Str) (content : Content Data) (past : History Data) : Prop :=
  ∀ after e before, past = after ++ e :: before → DisableEvent P u e →
    UserOff P content u ∧ ∀ e' ∈ after, ∀ x, '/' ∉ x → Shows P u x e' →
      Settled P u (recordAt P content .devices x)

section

variable {P} {c c' : Requests Data} {u : Str} {i : Nat}

theorem fenced_step (hs : Sound P c) (hu : '/' ∉ u) {m : Move Job Oracle}
    (hm : NoStaleWrite P i u c m) (hcollision : NoCollision P c m)
    (h : c.step (controllers P) m = some c')
    (hfenced : ∀ t, c.threads[i]? = some t → Fenced P u c.world.content t.past) :
    ∀ t, c'.threads[i]? = some t → Fenced P u c'.world.content t.past := by
  obtain ⟨job, rfl, rfl⟩ | ⟨j, o, job, r, k, past, a, w, rfl, ht, hanswer, rfl⟩ := step_cases h
  · intro t hti
    change (c.threads ++ _)[i]? = some t at hti
    rw [List.getElem?_append] at hti
    split at hti
    · exact hfenced t hti
    · obtain rfl := List.mem_singleton.mp (List.mem_of_getElem? hti)
      intro after e before heq
      exact absurd heq (by simp)
  -- what was fenced before the call stays so
  have hkeep : ∀ t, c.threads[i]? = some t → Fenced P u w.content t.past := by
    intro t hti after e before heq hdisable
    obtain ⟨hoff, hshown⟩ := hfenced t hti after e before heq hdisable
    have hacked : ∃ t, c.threads[i]? = some t ∧ ∃ e ∈ t.past, DisableEvent P u e :=
      ⟨t, hti, e, heq ▸ List.mem_append_right _ List.mem_cons_self, hdisable⟩
    have hcurrent : ∀ kind ops, r = .mutate kind ops →
        ∀ op ∈ ops, Current P u c.world.content past kind op := by
      rintro kind ops rfl
      exact hm hacked past kind ops ⟨j, o, job, k, rfl, ht⟩
    have hdigest := hcollision past r ⟨j, o, job, k, rfl, ht⟩
    exact ⟨userOff_step hdigest hs ht hanswer hu hcurrent hoff, fun e' he' x hx hx' =>
      settled_step hs ht hanswer hcurrent hoff hx (hshown e' he' x hx hx')⟩
  intro t hti
  obtain ⟨_, hti⟩ | ⟨rfl, rfl⟩ := thread_of_set hti
  · exact hkeep t hti
  · intro after e before heq hdisable
    cases after with
    | nil =>
      obtain ⟨rfl, rfl⟩ := List.cons.inj heq
      obtain ⟨rec, revision, hevent, henabled⟩ := hdisable
      cases hevent
      refine ⟨⟨rec, ?_, henabled⟩, fun e' he' => by cases he'⟩
      have hfile := file_of_ack (stable_recordKey .users hu) hanswer
      exact (congrArg (recordOf P) hfile).trans (recordOf_dumps P rec)
    | cons e₁ after =>
      obtain ⟨rfl, hrest⟩ := List.cons.inj heq
      obtain ⟨hoff, hshown⟩ := hkeep _ ht after e before hrest hdisable
      refine ⟨hoff, fun e' he' x hx hx' => ?_⟩
      obtain rfl | he' := List.mem_cons.mp he'
      · exact settled_of_shows hanswer hx hx'
      · exact hshown e' he' x hx hx'

theorem fenced_reaches {w : World Data} (hw : Unclashed P w) (hu : '/' ∉ u)
    (h : Reaches (controllers P) (fun c m => NoStaleWrite P i u c m ∧ NoCollision P c m)
      ⟨w, []⟩ c) :
    ∀ t, c.threads[i]? = some t → Fenced P u c.world.content t.past := by
  induction h with
  | refl => exact fun t ht => by cases ht
  | tail hbefore hok hmove ih =>
    exact fenced_step ((sound_of_unclashed hw).reaches hbefore) hu hok.1 hok.2 hmove ih

end

/-- **Disabling a User is final in every run without stale writes**: once `disable_user` has
    returned, the User is disabled and none of its Devices is active. -/
theorem disabled_user_stays_disabled {w : World Data} (hw : Unclashed P w) {c : Requests Data}
    {i : Nat} {username : Str} {now : Option Int} {user : Record} {id : Json} {past : History Data}
    (hid : user["id".toList]? = some id)
    (hrun : Reaches (controllers P)
      (fun c m => NoStaleWrite P i (P.str id) c m ∧ NoCollision P c m) ⟨w, []⟩ c)
    (hreturned : c.threads[i]? =
      some ⟨.disableUser username now, .ret (.returned user), past⟩) :
    (∃ r, recordAt P c.world.content .users (P.str id) = some r ∧
      r["enabled".toList]? = some (.bool false)) ∧
    ∀ x r, '/' ∉ x → recordAt P c.world.content .devices x = some r →
      P.strField r "user_id" = P.str id → deviceIsActive r = false := by
  have hs := (sound_of_unclashed hw).reaches hrun
  have hpost : jobPost P (.disableUser username now) past (.ok (.returned user)) :=
    hs.obeys _ (List.mem_of_getElem? hreturned)
  obtain ⟨hhex, after, before, r, revision, heq, henabled, hall⟩ := hpost id hid
  have hfenced := fenced_reaches hw (not_slash_of_isHex hhex) hrun _ hreturned
  obtain ⟨hoff, hshown⟩ := hfenced after _ before heq ⟨r, revision, rfl, henabled⟩
  refine ⟨hoff, fun x rec hx hrec howner => ?_⟩
  obtain ⟨e, he, hshows⟩ := hall x hx
  exact hshown e he x hx hshows rec hrec howner

/-! ## Overlapping requests -/

namespace Overlap

open Plain

/-- A User whose password needs a rehash, and their Device. -/
def userStart : Requests Loaded :=
  ⟨startWorld plainRuntime
    [(.users, userId, .of [("id", .str userId), ("username", .str "alice"),
       ("password_hash", .str "old"), ("enabled", .bool true)]),
     (.usernames, plainIndex "alice", .of [("user_id", .str userId)]), device, access]
    [deviceId], []⟩

theorem unclashed_userStart : Unclashed plainRuntime userStart.world :=
  unclashed_startWorld plainRuntime (by decide +kernel)

/-- The calls of `disable_user` after the User, as thread `i`. -/
def disablingDevices (i : Nat) : List (Move Job Oracle) :=
  calls i 1 usual ++ .advance i { names := [token ++ jsonSuffix] } :: calls i 3 usual ++
    .advance i { names := [deviceId ++ jsonSuffix] } :: calls i 7 usual

/-- A heartbeat until it is about to write the Device, as thread 0. -/
def beating : List (Move Job Oracle) :=
  .start (.heartbeat ("Bearer " ++ token) (some ∅)) :: calls 0 6 usual

/-- The heartbeat commits between the two writes, with the Device as read. -/
def beatingBetween : List (Move Job Oracle) :=
  beating ++ .start (.disableUser "alice" (some 5)) :: calls 1 4 usual ++ calls 0 1 usual ++
    disablingDevices 1

/-- A heartbeat and a login get as far as their writes; then `disable_user` runs. -/
def overlapping : List (Move Job Oracle) :=
  beating ++ .start (.authLogin (some (.of [("username", .str "alice"),
      ("password", .str "old")]))) :: calls 1 4 usual ++
    .start (.disableUser "alice" (some 5)) :: calls 2 4 usual ++ disablingDevices 2

/-- The User that a `disable_user` request has returned. -/
def disabledUser (i : Nat) (c : Requests Loaded) : Option Record :=
  match c.threads[i]? with
  | some ⟨.disableUser _ _, .ret (.returned r), _⟩ => some r
  | _ => none

theorem returned_of_disabledUser {i : Nat} {c : Requests Loaded} {user : Record}
    (h : disabledUser i c = some user) : ∃ username now past,
      c.threads[i]? = some ⟨.disableUser username now, .ret (.returned user), past⟩ := by
  unfold disabledUser at h
  split at h
  · rename_i username now r past ht
    obtain rfl := Option.some.inj h
    exact ⟨username, now, past, ht⟩
  · cases h

/-- The state in which `disable_user` has returned beside the two. -/
def overlapped : Requests Loaded := (run userStart overlapping).getD userStart

/-- Is the User enabled, and is the Device active? -/
def standings (c : Option (Requests Loaded)) : Option (Option Bool × Option Bool) :=
  c.map fun c => ((recordAt plainRuntime c.world.content .users userId).map userEnabled,
    (recordAt plainRuntime c.world.content .devices deviceId).map deviceIsActive)

/-- The Device as an event has read it, if it has. -/
def deviceRead : Event (Req Loaded) Ans → Option Record
  | ⟨.readFile path, file⟩ =>
    if path = recordKey .devices deviceId then recordOf plainRuntime file else none
  | _ => none

/-- Is the committed Device the one that the request has read? -/
def isUnmoved (content : Content Loaded) (past : History Loaded) : Bool :=
  past.all fun e => (deviceRead e).all fun r =>
    (recordAt plainRuntime content .devices deviceId).any fun now =>
      (Loaded.object now).isFlat && render (.object now) = render (.object r)

/-- Does the move keep the User, register nothing, and put back only what is still so? -/
def isCurrent (c : Requests Loaded) (m : Move Job Oracle) : Bool :=
  flatFiles c.world.content && match c.next m with
  | some (past, .mutate kind ops) =>
    kind ∉ ["RegisterDevice".toList, "UpdateRegisteredDevice".toList] &&
      ops.all fun op =>
        (op.path ≠ recordKey .users userId ||
          (recordOf plainRuntime (some op.data)).all fun r => !userEnabled r) &&
        (kind ≠ "DeviceHeartbeat" ||
          (op.path = recordKey .devices deviceId && isUnmoved c.world.content past))
  | _ => true

theorem unmoved_of_isUnmoved {content : Content Loaded} {past : History Loaded}
    (h : isUnmoved content past = true) : Unmoved plainRuntime content past deviceId := by
  rintro r ⟨file, hmem, hr⟩
  have hread : deviceRead ⟨.readFile (recordKey .devices deviceId), file⟩ = some r := by
    rw [deviceRead, if_pos rfl, hr]
  have hany := List.all_eq_true.mp h _ hmem
  rw [hread] at hany
  obtain ⟨now, hnow, hsame⟩ := (Option.any_eq_true _ _).mp hany
  obtain ⟨hflat, hrender⟩ := Bool.and_eq_true _ _ ▸ hsame
  obtain rfl := Loaded.object.inj (render_injective hflat (of_decide_eq_true hrender))
  exact ⟨now, hnow, rfl⟩

theorem current_of_isCurrent {i : Nat} (c : Requests Loaded) (m : Move Job Oracle)
    (h : isCurrent c m = true) :
    NoStaleWrite plainRuntime i userId c m ∧ NoCollision plainRuntime c m := by
  obtain ⟨hflat, hnext⟩ := Bool.and_eq_true _ _ ▸ h
  refine ⟨fun _ past kind ops hcalls op hop => ?_, noCollision_of_flat hflat m⟩
  rw [hcalls.next] at hnext
  obtain ⟨hkind, hops⟩ := Bool.and_eq_true _ _ ▸ hnext
  obtain ⟨huser, hdevice⟩ := Bool.and_eq_true _ _ ▸ List.all_eq_true.mp hops op hop
  have hkinds : kind ≠ "RegisterDevice".toList ∧ kind ≠ "UpdateRegisteredDevice".toList := by
    simpa using hkind
  refine ⟨?_, fun heq => absurd heq hkinds.1, fun heq x r hput _ => ?_⟩
  · rintro r rfl henabled
    rw [show (putOp (recordKey .users userId) (plainRuntime.dumps r)).data = plainRuntime.dumps r
      from rfl, recordOf_dumps] at huser
    simp [putOp, henabled] at huser
  · obtain rfl | heq := heq
    · obtain ⟨hpath, hunmoved⟩ : op.path = recordKey .devices deviceId ∧
          isUnmoved c.world.content past = true := by simpa using hdevice
      rw [hput] at hpath
      obtain rfl : x = deviceId :=
        List.append_cancel_right (List.cons.inj (List.append_cancel_left hpath)).2
      exact unmoved_of_isUnmoved hunmoved
    · exact absurd heq hkinds.2

end Overlap

open Overlap Plain in
/-- **A login and a heartbeat that overlap undo `disable_user` after it has returned.** -/
theorem overlap_reenables :
    Unclashed plainRuntime userStart.world ∧
    (disabledUser 2 overlapped).isSome = true ∧
    standings (some overlapped) = some (some false, some false) ∧
    standings (run overlapped (calls 1 1 usual ++ calls 0 1 usual)) = some (some true, some true) :=
  ⟨unclashed_userStart, by decide +kernel, by decide +kernel, by decide +kernel⟩

open Overlap Plain in
/-- A heartbeat overlaps, but commits the Device as it is. -/
theorem disabled_user_stays_disabled_beating :
    ∃ c, userStart.runIf (controllers plainRuntime) isCurrent beatingBetween = some c ∧
      (∃ r, recordAt plainRuntime c.world.content .users userId = some r ∧
        r["enabled".toList]? = some (.bool false)) ∧
      ∀ x r, '/' ∉ x → recordAt plainRuntime c.world.content .devices x = some r →
        plainRuntime.strField r "user_id" = userId → deviceIsActive r = false := by
  have hsome : ((userStart.runIf (controllers plainRuntime) isCurrent beatingBetween).bind
      fun c => (disabledUser 1 c).bind fun r => (r["id".toList]?).map fun id =>
        decide (plainRuntime.str id = userId)) = some true := by decide +kernel
  obtain ⟨c, hc, hrest⟩ := Option.bind_eq_some_iff.mp hsome
  obtain ⟨user, huser, hrest⟩ := Option.bind_eq_some_iff.mp hrest
  obtain ⟨id, hid, hname⟩ := Option.map_eq_some_iff.mp hrest
  have hname : plainRuntime.str id = userId := of_decide_eq_true hname
  obtain ⟨username, now, past, hreturned⟩ := returned_of_disabledUser huser
  have hrun := reaches_of_runIf (current_of_isCurrent (i := 1)) .refl hc
  rw [← hname] at hrun
  have hfinal := disabled_user_stays_disabled plainRuntime unclashed_userStart hid hrun hreturned
  rw [hname] at hfinal
  exact ⟨c, hc, hfinal⟩

end Bpc.Deploy
