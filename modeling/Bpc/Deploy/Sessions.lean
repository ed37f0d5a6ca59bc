/-
  CREDENTIALS AND SESSIONS, FROM THE SIDE — functions that write neither Users nor Devices.

  `Aside` are the calls that write only credentials, notices and index records.  A function of such
  calls is harmless under every set of rules that lets them pass (`harmless_ofAside`).
-/
import Bpc.Deploy.Calls

namespace Bpc.Deploy

open SlashPath Controlplane Interaction

/-- The directories whose records no result here is about. -/
def Dir.isOther : Dir → Bool
  | .devices => false
  | .users => false
  | _ => true

variable {Data : Type}

/-- An operation on a record that is neither a User nor a Device. -/
def AsideOp (op : Operation Data) : Prop :=
  ∃ d name, Dir.isOther d = true ∧ '/' ∉ name ∧ op.path = recordKey d name ∧
    (op.op = .put ∨ op.op = .delete)

/-- A call that submits nothing, or only operations on such records. -/
def Aside : Req Data → Prop
  | .mutate _ operations => ∀ op ∈ operations, AsideOp op
  | _ => True

/-- A listing has the names of records. -/
def ListsRecords (R : Rules (Req Data) Ans) : Prop :=
  ∀ d (names : List Str), R.may (.glob d) names → ∀ name ∈ names, '/' ∉ name ∧ jsonSuffix <:+ name

section

variable {P : Runtime Data} {R : Rules (Req Data) Ans} {past : History Data}

theorem lenient_of_aside (hR : ∀ past r, Aside r → R.must past r) : Lenient R := by
  intro past r h
  refine hR past r ?_
  cases r with
  | mutate kind operations => exact h.elim
  | _ => trivial

theorem lenient_aside : Lenient (R.only Aside) := lenient_of_aside fun _ _ h => h

theorem asideOp_path {op : Operation Data} (h : AsideOp op) :
    ∃ d name, op.path = recordKey d name ∧ '/' ∉ name := by
  obtain ⟨d, name, _, hname, hpath, _⟩ := h
  exact ⟨d, name, hpath, hname⟩

theorem harmless_ofAside {α : Type} {p : Handler Data α} (hR : ∀ past r, Aside r → R.must past r)
    (h : Harmless (R.only Aside) p) : Harmless R p :=
  fun past => ((h past).only hR).mono fun _ _ _ _ => trivial

theorem harmless_read {α : Type} {p : Handler Data α} (h : Harmless ((R.only Aside).only Quiet) p) :
    Harmless (R.only Aside) p :=
  lenient_aside.harmless h

theorem aside_singleton {kind : Str} {op : Operation Data} (h : AsideOp op) :
    (R.only Aside).must past (.mutate kind [op]) := by
  intro op' hop
  rw [List.mem_singleton.mp hop]
  exact h

/-! ## Single records -/

theorem harmless_atomicJson {d : Dir} {name : Str} {value : Record} (hd : d.isOther = true)
    (hname : '/' ∉ name) : Harmless (R.only Aside) (atomicJson P (recordPath d name) value) :=
  fun _ => (returns_atomicJson hname (aside_singleton ⟨d, name, hd, hname, rfl, .inl rfl⟩)).mono
    fun _ _ _ _ => trivial

theorem harmless_deleteCanonical {d : Dir} {name kind : Str} (hd : d.isOther = true)
    (hname : '/' ∉ name) : Harmless (R.only Aside) (deleteCanonical P (recordKey d name) kind) :=
  fun _ => returns_deleteCanonical hname (aside_singleton ⟨d, name, hd, hname, rfl, .inr rfl⟩)

theorem harmless_writeCredential {d : Dir} (hd : d.isOther = true) (token : Str) (record : Record) :
    Harmless (R.only Aside) (writeCredential P d token record) := by
  unfold writeCredential credentialIndex
  split
  · exact harmless_atomicJson hd (not_slash_of_isHex (P.sha256Text_hex token))
  · exact harmless_raise _

theorem harmless_writeRevocation {kind subjectId : Str} (timestamp : Int) (reason : Str)
    (hkind : '/' ∉ kind) (hsubject : '/' ∉ subjectId) :
    Harmless (R.only Aside) (writeRevocation P kind subjectId timestamp reason) := by
  refine harmless_atomicJson rfl fun hmem => ?_
  obtain hmem | hmem := List.mem_append.mp hmem
  · exact hkind hmem
  · obtain hmem | hmem := List.mem_cons.mp hmem
    · exact absurd hmem (by decide)
    · exact hsubject hmem

/-! ## Issuing -/

theorem harmless_issueAccessCredential (userId : Str) (deviceId : Json) (scope : Str) :
    Harmless (R.only Aside) (issueAccessCredential P userId deviceId scope) :=
  (harmless_ask fun _ => trivial).bind fun _ => (harmless_ask fun _ => trivial).bind fun token =>
    (harmless_writeCredential rfl token _).bind fun _ => harmless_ret _

theorem harmless_issueRefreshCredential (userId deviceId : Str) :
    Harmless (R.only Aside) (issueRefreshCredential P userId deviceId) :=
  (harmless_ask fun _ => trivial).bind fun _ => (harmless_ask fun _ => trivial).bind fun token =>
    (harmless_ask fun _ => trivial).bind fun _ =>
      (harmless_writeCredential rfl token _).bind fun _ => harmless_ret _

theorem harmless_issueDeviceSession (userId deviceId : Str) :
    Harmless (R.only Aside) (issueDeviceSession P userId deviceId) :=
  (harmless_issueAccessCredential userId _ _).bind fun _ =>
    (harmless_issueRefreshCredential userId deviceId).bind fun _ => harmless_ret _

/-! ## Revoking -/

/-- Rules under which credentials can be revoked at the times `φ`. -/
structure Revokes (P : Runtime Data) (R : Rules (Req Data) Ans) (φ : Int → Prop) : Prop where
  lenient : Lenient R
  lists : ListsRecords R
  time : ∀ t : Int, R.may .time t → φ t
  deletes : ∀ name kind, '/' ∉ name →
    Harmless R (deleteCanonical P (recordKey .identityAccess name) kind)
  marks : ∀ chosen t name, φ t → '/' ∉ name ∧ jsonSuffix <:+ name →
    Harmless R (revokeCredential P chosen t name)

namespace Revokes

variable {φ : Int → Prop} {now : Option Int} (h : Revokes P R φ)
include h

theorem deleteCredential (chosen : Record → Bool) {name : Str}
    (hname : '/' ∉ name ∧ jsonSuffix <:+ name) : Harmless R (deleteCredential P chosen name) := by
  obtain ⟨x, hx, rfl, hpath⟩ := filePath_eq .identityAccess hname.1 hname.2
  refine (h.lenient.harmless (harmless_orSkip_readJson _)).bind fun found => ?_
  cases found with
  | none => exact harmless_ret ()
  | some record =>
    refine Harmless.ite ?_ (harmless_ret ())
    rw [hpath]
    exact h.deletes x _ hx

theorem revokeCredentials (chosenAccess chosenRefresh : Record → Bool) {t : Int} (ht : φ t) :
    Harmless R (revokeCredentials P chosenAccess chosenRefresh t) := by
  intro past
  refine (returns_ask (h.lenient _ (.glob .identityAccess) trivial)).seq fun past₁ names _
    hnames => ?_
  refine (harmless_forEach fun name hname =>
    h.deleteCredential _ (h.lists _ names hnames.2 name hname)).seq fun past₂ _ _ => ?_
  refine (returns_ask (h.lenient _ (.glob .refresh) trivial)).seq fun past₃ names₂ _ hnames₂ => ?_
  exact harmless_forEach (fun name hname =>
    h.marks _ t name ht (h.lists _ names₂ hnames₂.2 name hname)) past₃

theorem timed {α : Type} {f : Int → Handler Data α} (hnow : ∀ t, now = some t → φ t)
    (hf : ∀ t, φ t → Harmless R (f t)) : Harmless R ((timestampOf now).bind f) := by
  intro past
  cases now with
  | none =>
    exact (returns_ask (h.lenient _ .time trivial)).seq fun past' t _ ht =>
      hf t (h.time t ht.2) past'
  | some t => exact hf t (hnow t rfl) past

theorem revokeDeviceCredentials (deviceId : Str) (hnow : ∀ t, now = some t → φ t) :
    Harmless R (revokeDeviceCredentials P deviceId now) :=
  h.timed hnow fun _ => h.revokeCredentials _ _

theorem revokeUserAccess (userId : Str) (hnow : ∀ t, now = some t → φ t) :
    Harmless R (revokeUserAccess P userId now) :=
  h.timed hnow fun _ => h.revokeCredentials _ _

end Revokes

/-- Beside Users and Devices, credentials can be revoked at any time. -/
theorem revokes_aside (hR : ListsRecords R) : Revokes P (R.only Aside) fun _ => True where
  lenient := lenient_aside
  lists := hR
  time _ _ := trivial
  deletes _ _ hname := harmless_deleteCanonical rfl hname
  marks chosen t name _ hname := by
    obtain ⟨x, hx, rfl, hpath⟩ := filePath_eq .refresh hname.1 hname.2
    refine (harmless_read (harmless_orSkip_readJson _)).bind fun found => ?_
    cases found with
    | none => exact harmless_ret ()
    | some record =>
      refine Harmless.ite ?_ (harmless_ret ())
      rw [hpath, ← recordPath_plain .refresh hx]
      exact harmless_atomicJson rfl hx

/-! ## Sessions -/

theorem harmless_field (r : Record) (key : Str) : Harmless R (field r key : Handler Data Json) :=
  fun _ => (returns_field r key).mono fun _ _ _ _ => trivial

theorem harmless_indexed {α : Type} (token : Str) {f : Str → Handler Data α}
    (hf : ∀ index, '/' ∉ index → Harmless R (f index)) :
    Harmless R ((credentialIndex P token).bind f) := by
  intro past
  refine (returns_credentialIndex token).seq fun past' index _ hindex => ?_
  exact hf index (hindex.2 ▸ not_slash_of_isHex (P.sha256Text_hex token)) past'

theorem harmless_authorizeAccessCredentialAt (hR : Lenient R)
    (hdelete : ∀ name kind, '/' ∉ name →
      Harmless R (deleteCanonical P (recordKey .identityAccess name) kind))
    (now : Option Int) (token : Str) (requireDevice : Bool) (requiredScope : Option Str) :
    Harmless R (authorizeAccessCredentialAt P now token requireDevice requiredScope) := by
  refine (hR.harmless harmless_strongRead).bind fun _ => ?_
  refine (harmless_validateOpaqueToken _ _).bind fun credential => ?_
  refine harmless_indexed credential fun index hindex => ?_
  refine (hR.harmless fun _ => returns_orRaise (harmless_readJson _ _)).bind fun record => ?_
  refine (hR.harmless (harmless_timestampOf now)).bind fun timestamp => ?_
  refine (harmless_ofExcept _).bind fun expiresAt => ?_
  dsimp only
  rw [recordPath_plain _ hindex]
  refine Harmless.ite ((hdelete index _ hindex).bind fun _ => harmless_raise _) ?_
  refine (harmless_raiseIf _ _).bind fun _ => ?_
  refine (hR.harmless (harmless_loadUser _)).bind fun user => ?_
  refine (harmless_raiseIf _ _).bind fun _ => ?_
  refine Harmless.ite ?_ ((harmless_raiseIf _ _).bind fun _ => harmless_ret _)
  refine (hR.harmless (harmless_loadDevice _)).bind fun device => ?_
  refine (harmless_field user _).bind fun id => ?_
  exact (harmless_raiseIf _ _).bind fun _ => harmless_ret _

theorem harmless_openSession (hR : ListsRecords R) (accessToken : Str) (user device : Record)
    (registered : Bool) :
    Harmless (R.only Aside) (openSession P accessToken user device registered) := by
  refine Harmless.handle ?_ fun raised => Harmless.ite (harmless_ret _) (harmless_raise _)
  refine (harmless_read (harmless_outside _)).bind fun config => ?_
  refine (harmless_read (harmless_outside _)).bind fun wireguard => ?_
  have hrevoke : Harmless (R.only Aside)
      (revokeDeviceCredentials P (P.deviceId device []) none) :=
    (revokes_aside hR).revokeDeviceCredentials _ nofun
  refine Harmless.bind (Harmless.ite hrevoke (harmless_ret ())) fun _ => ?_
  refine (harmless_field user _).bind fun id => ?_
  refine (harmless_issueDeviceSession _ _).bind fun session => ?_
  refine harmless_indexed accessToken fun index hindex => ?_
  rw [recordPath_plain _ hindex]
  exact (harmless_deleteCanonical rfl hindex).bind fun _ => harmless_ret _

end

end Bpc.Deploy
