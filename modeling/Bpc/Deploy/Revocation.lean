/-
  DEVICE REVOCATION — is it permanent?

  `_heartbeat` and `_device_register` put back the record they have read, with no condition: one
  that read the Device before makes it active again (`heartbeat_reactivates`).  It is permanent if
  no such write is STALE (`revoked_stays_inactive`).
-/
import Bpc.Deploy.Concurrent
import Bpc.Deploy.PlainRuntime

namespace Bpc.Deploy

open SlashPath Controlplane Interaction

variable {Data : Type} (P : Runtime Data)

/-- No Device is put back whose standing has changed since it was read. -/
def NoStaleRefresh (x : Str) (c : Requests Data) (m : Move Job Oracle) : Prop :=
  ∀ past kind ops, c.Calls m past (.mutate kind ops) →
    kind = "DeviceHeartbeat" ∨ kind = "UpdateRegisteredDevice" →
    ∀ op ∈ ops, op.path = recordKey .devices x → Unmoved P c.world.content past x

/-- The Device is there and not active. -/
def Inactive (content : Content Data) (x : Str) : Prop :=
  ∃ r, recordAt P content .devices x = some r ∧ deviceIsActive r = false

section

variable {P} {c c' : Requests Data} {x : Str}

theorem inactive_step (hs : Sound P c) (hx : '/' ∉ x) (hinactive : Inactive P c.world.content x)
    {m : Move Job Oracle} (hm : NoStaleRefresh P x c m) (h : c.step (controllers P) m = some c') :
    Inactive P c'.world.content x := by
  obtain ⟨job, rfl, rfl⟩ | ⟨i, o, job, r, k, past, a, w, rfl, ht, hanswer, rfl⟩ := step_cases h
  · exact hinactive
  · obtain ⟨now, hnow, hnowInactive⟩ := hinactive
    obtain hsame | ⟨kind, ops, rec, rfl, hop, _, hwrite, hrec⟩ :=
      device_of_perform (hs.obeys.must ht) hanswer hx
    · exact ⟨now, hsame.trans hnow, hnowInactive⟩
    · refine ⟨rec, hrec, ?_⟩
      cases hwrite with
      | registered _ hdrawn _ _ =>
        cases (hs.fresh _ (List.mem_of_getElem? ht) x hdrawn).symm.trans hnow
      | refreshed hkind hread hstanding =>
        obtain ⟨now', hnow', hsame⟩ := hm past kind ops
          ⟨i, o, job, k, rfl, ht⟩ hkind _ hop rfl _ hread
        obtain rfl := Option.some.inj (hnow.symm.trans hnow')
        exact (deviceIsActive_of_standing (hstanding.trans hsame.symm)).trans hnowInactive
      | deactivated _ henabled => exact not_active_of_enabled henabled

theorem inactive_reaches (hs : Sound P c) (hx : '/' ∉ x) (hinactive : Inactive P c.world.content x)
    (h : Reaches (controllers P) (NoStaleRefresh P x) c c') : Inactive P c'.world.content x := by
  induction h with
  | refl => exact hinactive
  | tail hbefore hok hmove ih => exact inactive_step (hs.reaches hbefore) hx ih hok hmove

end

theorem not_active_of_revoked {r : Record} (h : (r.get "revoked" (.bool false)).truthy = true) :
    deviceIsActive r = false := by
  unfold deviceIsActive
  rw [h, Bool.not_true, Bool.and_false, Bool.false_and]

/-- **Revocation is permanent in every run without a stale refresh of the Device.** -/
theorem revoked_stays_inactive {w : World Data} (hw : Unclashed P w) {c c' : Requests Data}
    {x : Str} (hx : isHex 32 x = true)
    (hbefore : Reaches (controllers P) (fun _ _ => True) ⟨w, []⟩ c) {r : Record}
    (hrecord : recordAt P c.world.content .devices x = some r)
    (hrevoked : (r.get "revoked" (.bool false)).truthy = true)
    (hafter : Reaches (controllers P) (NoStaleRefresh P x) c c') :
    ∃ r', recordAt P c'.world.content .devices x = some r' ∧ deviceIsActive r' = false :=
  inactive_reaches ((sound_of_unclashed hw).reaches hbefore) (not_slash_of_isHex hx)
    ⟨r, hrecord, not_active_of_revoked hrevoked⟩ hafter

/-- **No request deletes or renames a Device or a User**: a committed record stays, in the file of
    its own id. -/
theorem records_stay {w : World Data} (hw : Unclashed P w) {c c' : Requests Data}
    (hbefore : Reaches (controllers P) (fun _ _ => True) ⟨w, []⟩ c)
    (hafter : Reaches (controllers P) (fun _ _ => True) c c') {d : Dir}
    (hd : d = .devices ∨ d = .users) {x : Str} (hx : '/' ∉ x)
    (h : (recordAt P c.world.content d x).isSome = true) :
    ∃ r, recordAt P c'.world.content d x = some r ∧ Named P d x r := by
  have hs := (sound_of_unclashed hw).reaches hbefore
  have hstays : (recordAt P c'.world.content d x).isSome = true := by
    induction hafter with
    | refl => exact h
    | tail hrun _ hmove ih =>
      obtain ⟨job, -, rfl⟩ | ⟨i, o, job, r, k, past, a, w', -, ht, hanswer, rfl⟩ := step_cases hmove
      · exact ih
      · have hmust := (hs.reaches hrun).obeys.must ht
        show (recordAt P w'.content d x).isSome = true
        rcases hd with rfl | rfl
        · obtain hsame | ⟨_, _, _, _, _, _, _, hrec⟩ := device_of_perform hmust hanswer hx
          · rwa [hsame]
          · rw [hrec]; rfl
        · obtain hsame | ⟨_, _, _, _, _, _, _, _, _, hrec⟩ := user_of_perform hmust hanswer hx
          · rwa [hsame]
          · rw [hrec]; rfl
  obtain ⟨r, hr⟩ := Option.isSome_iff_exists.mp hstays
  exact ⟨r, hr, (hs.reaches hafter).files.named d x r hx hr⟩

/-! ## A stale heartbeat -/

namespace Overlap

open Plain

/-- One active Device of one enabled User, with an access credential. -/
def start : Requests Loaded :=
  ⟨startWorld plainRuntime [user, device, access] [deviceId], []⟩

theorem unclashed_start : Unclashed plainRuntime start.world :=
  unclashed_startWorld plainRuntime (by decide +kernel)

/-- A heartbeat reads the Device; then the Device is revoked. -/
def revoking : List (Move Job Oracle) :=
  .start (.heartbeat ("Bearer " ++ token) (some ∅)) :: calls 0 6 usual ++
    .start (.deactivateDevice deviceId true (some 5)) :: calls 1 3 usual

/-- The revoking request writes, lists the credentials and deletes one. -/
def continuing : List (Move Job Oracle) :=
  .advance 1 usual :: .advance 1 { names := [token ++ jsonSuffix] } :: calls 1 2 usual

/-- A schedule without a test. -/
def run (c : Requests Loaded) (schedule : List (Move Job Oracle)) : Option (Requests Loaded) :=
  c.runIf (controllers plainRuntime) (fun _ _ => true) schedule

/-- What the committed Device shows. -/
def observe {α : Type} (f : Record → α) (c : Option (Requests Loaded)) : Option α :=
  (c.bind fun c => recordAt plainRuntime c.world.content .devices deviceId).map f

/-- The state in which the Device has just been revoked. -/
def revokedState : Requests Loaded := (run start revoking).getD start

theorem run_revoking : run start revoking = some revokedState := by
  have h : (run start revoking).isSome = true := by decide +kernel
  unfold revokedState
  obtain ⟨c, hc⟩ := Option.isSome_iff_exists.mp h
  rw [hc]
  rfl

/-- Is the move neither a heartbeat's nor a re-registration's write? -/
def noRefresh (c : Requests Loaded) (m : Move Job Oracle) : Bool :=
  match c.next m with
  | some (_, .mutate kind _) =>
    kind ≠ "DeviceHeartbeat" ∧ kind ≠ "UpdateRegisteredDevice"
  | _ => true

theorem noStaleRefresh_of_noRefresh {c : Requests Loaded} {m : Move Job Oracle}
    (h : noRefresh c m = true) : NoStaleRefresh plainRuntime deviceId c m := by
  intro past kind ops hcalls hkind
  rw [noRefresh, hcalls.next] at h
  simp only [ne_eq, Bool.decide_and, Bool.and_eq_true, decide_eq_true_eq] at h
  obtain hkind | hkind := hkind
  · exact absurd hkind h.1
  · exact absurd hkind h.2

end Overlap

open Overlap Plain in
/-- **A heartbeat that read the Device before makes it active again.** -/
theorem heartbeat_reactivates :
    Unclashed plainRuntime start.world ∧
    observe (fun r => (r.get "revoked" (.bool false)).truthy) (run start revoking) = some true ∧
    observe deviceIsActive (run revokedState (calls 0 1 usual)) = some true :=
  ⟨unclashed_start, by decide +kernel, by decide +kernel⟩

open Overlap Plain in
/-- Without the stale heartbeat the Device stays inactive. -/
theorem revoked_stays_inactive_revoking :
    ∃ c', revokedState.runIf (controllers plainRuntime) noRefresh continuing = some c' ∧
      ∃ r', recordAt plainRuntime c'.world.content .devices deviceId = some r' ∧
        deviceIsActive r' = false := by
  have hsome : (revokedState.runIf (controllers plainRuntime) noRefresh continuing).isSome =
    true := by
    decide +kernel
  have hrevoked : observe (fun r => (r.get "revoked" (.bool false)).truthy) (some revokedState) =
      some true := by decide +kernel
  obtain ⟨c', hc'⟩ := Option.isSome_iff_exists.mp hsome
  obtain ⟨r, hr, htruthy⟩ := Option.map_eq_some_iff.mp hrevoked
  refine ⟨c', hc', revoked_stays_inactive plainRuntime unclashed_start (by decide)
    (reaches_of_runIf (fun _ _ _ => trivial) .refl run_revoking) hr htruthy
    (reaches_of_runIf (fun _ _ => noStaleRefresh_of_noRefresh) .refl hc')⟩

open Overlap Plain in
/-- The revoked Device has its record. -/
theorem records_stay_revoking :
    ∃ r, recordAt plainRuntime revokedState.world.content .devices deviceId = some r ∧
      Named plainRuntime .devices deviceId r :=
  records_stay plainRuntime unclashed_start .refl
    (reaches_of_runIf (fun _ _ _ => trivial) .refl run_revoking) (.inl rfl) (by decide)
    (by decide +kernel)

end Bpc.Deploy
