/-
  GRANTS AND SESSIONS of the Device-to-Device pilot (`internal/p2p/grant.go`).

  `Grant.validate`, `verifyGrant` and `Session.active`; a session is built by `verifyGrant` only.
  A verified grant leases at most sixty seconds (`Grant.Fresh`), and a session without a policy
  store is active exactly during its lease (`active_iff`).
-/
import Bpc.Lib.GoTime
import Bpc.Lib.Steps
import Bpc.Routed.Config

namespace Bpc.P2P

open Routed (GoString ascii trimSpace)

/-! ## Data -/

/-- `Side`; the two values for which `valid` holds. -/
inductive Side where
  | initiator
  | host
  deriving DecidableEq, Repr

/-- `1 - side`. -/
def Side.other : Side → Side
  | .initiator => .host
  | .host => .initiator

/-- `netip.Addr`: an IPv4 address, or anything else. -/
inductive Addr where
  | v4 (a b c d : UInt8)
  | other (text : GoString)
  deriving DecidableEq, Repr

/-- `Is4`. -/
def Addr.is4 : Addr → Bool
  | .v4 .. => true
  | .other _ => false

/-- `IsPrivate`, of IPv4 addresses: 10/8, 172.16/12 and 192.168/16. -/
def Addr.isPrivate : Addr → Bool
  | .v4 a b _ _ => a == 10 || (a == 172 && b &&& 0xf0 == 16) || (a == 192 && b == 168)
  | .other _ => false

/-- `Participant`. -/
structure Participant where
  deviceID : GoString
  userID : GoString
  identityKey : GoString
  wireGuardKey : GoString
  address : Addr
  deriving DecidableEq

/-- `Grant`. -/
structure Grant where
  version : Int
  clusterID : GoString
  sessionID : GoString
  revision : Nat
  issuedAt : Int
  expiresAt : Int
  service : GoString
  participants : Participant × Participant
  deriving DecidableEq

/-- `Participants[side]`. -/
def Grant.participant (g : Grant) : Side → Participant
  | .initiator => g.participants.1
  | .host => g.participants.2

/-- `sessionAuthorization`. -/
structure Authorization where
  deadline : Int
  expiresAt : Int
  deriving DecidableEq

/-- `Session`. -/
structure Session where
  grant : Grant
  ticket : GoString
  deadline : Int
  managed : Bool
  authorization : Option Authorization
  deriving DecidableEq

/-- `authorization.Store`. -/
def Session.authorized (s : Session) (authorization : Option Authorization) : Session :=
  { s with authorization := authorization }

/-! ## The library -/

/-- What the code takes from outside. -/
structure GrantLib where
  /-- `decodeStrict` into a `signedGrant`: payload and signature. -/
  decodeEnvelope : GoString → Except String (GoString × GoString)
  /-- `decodeStrict` into a `Grant`. -/
  decodeGrant : GoString → Except String Grant
  /-- `ed25519.Verify`: key, message, signature. -/
  verify : GoString → GoString → GoString → Bool
  /-- `sha256.Sum256`. -/
  sha256 : GoString → GoString
  /-- `base64.StdEncoding`. -/
  decodeBase64 : GoString → Option GoString
  encodeBase64 : GoString → GoString

/-! ## Hexadecimal texts -/

/-- The value of a hexadecimal digit of either case. -/
def hexValue (b : UInt8) : Option UInt8 :=
  if 48 ≤ b ∧ b ≤ 57 then some (b - 48)
  else if 97 ≤ b ∧ b ≤ 102 then some (b - 87)
  else if 65 ≤ b ∧ b ≤ 70 then some (b - 55)
  else none

/-- The lower-case digit of a value below sixteen. -/
def hexDigit (n : UInt8) : UInt8 := if n < 10 then n + 48 else n + 87

/-- `hex.DecodeString`. -/
def decodeHex : GoString → Option GoString
  | [] => some []
  | [_] => none
  | a :: b :: rest => do
    let high ← hexValue a
    let low ← hexValue b
    let bytes ← decodeHex rest
    some ((high * 16 + low) :: bytes)

/-- `hex.EncodeToString`. -/
def encodeHex (bytes : GoString) : GoString :=
  bytes.flatMap fun b => [hexDigit (b / 16), hexDigit (b % 16)]

/-! ## `validate` -/

/-- `MaxLease / time.Second`. -/
def maxLease : Int := 60

/-- `MaxManagedSessions`. -/
def maxManagedSessions : Nat := 16

/-- `maxTicket`. -/
def maxTicket : Nat := 8192

/-- The one service. -/
def sunshine : GoString := ascii "sunshine-v1"

variable (lib : GrantLib)

/-- `agentctl.ParseWGKey(encoded, false)`, for its error. -/
def parseWGKey (encoded : GoString) : Option GoString :=
  match lib.decodeBase64 (trimSpace encoded) with
  | none => none
  | some raw => if raw.length ≠ 32 ∨ raw.all (· == 0) then none else some raw

/-- The checks of a participant. -/
def Participant.validate (p : Participant) : Except String Unit :=
  if p.deviceID = [] ∨ 128 < p.deviceID.length ∨ p.userID = [] ∨ 128 < p.userID.length ∨
      p.address.is4 = false ∨ p.address.isPrivate = false then
    .error "invalid P2P participant"
  else
    match lib.decodeBase64 p.identityKey with
    | none => .error "invalid Device identity key"
    | some key =>
      if key.length ≠ 32 ∨ lib.encodeBase64 key ≠ p.identityKey ∨ key = List.replicate 32 0 then
        .error "invalid Device identity key"
      else
        match parseWGKey lib p.wireGuardKey with
        | none => .error "invalid Device WireGuard key"
        | some wgKey =>
          if lib.encodeBase64 wgKey ≠ p.wireGuardKey then .error "invalid Device WireGuard key"
          else .ok ()

/-- `hex.DecodeString(id)` gives sixteen bytes, written in lower case. -/
def sessionIDOk (id : GoString) : Bool :=
  match decodeHex id with
  | none => false
  | some bytes => bytes.length == 16 && encodeHex bytes == id

/-- `Validate`. -/
def Grant.validate (g : Grant) (now : Int) : Except String Unit :=
  if g.version ≠ 1 ∨ g.service ≠ sunshine ∨ g.clusterID = [] ∨ 128 < g.clusterID.length ∨
      g.revision = 0 then
    .error "unsupported P2P grant scope"
  else if sessionIDOk g.sessionID = false then .error "invalid P2P session ID"
  else if g.issuedAt ≤ 0 ∨ Time.unix now < g.issuedAt ∨ g.expiresAt ≤ Time.unix now ∨
      maxLease < g.expiresAt - g.issuedAt then
    .error "P2P grant expired or invalid lifetime"
  else
    match g.participants.1.validate lib with
    | .error e => .error e
    | .ok () =>
      match g.participants.2.validate lib with
      | .error e => .error e
      | .ok () =>
        let a := g.participants.1
        let b := g.participants.2
        if a.userID ≠ b.userID ∨ a.deviceID = b.deviceID ∨ a.address = b.address ∨
            a.identityKey = b.identityKey ∨ a.wireGuardKey = b.wireGuardKey then
          .error "P2P requires distinct Devices of the same owner"
        else .ok ()

/-- `VerifyGrant`. -/
def verifyGrant (ticket issuer cluster : GoString) (minRevision : Nat) (now : Int) :
    Except String Session :=
  if issuer.length ≠ 32 ∨ cluster = [] ∨ maxTicket < ticket.length then
    .error "invalid P2P trust context"
  else
    match lib.decodeEnvelope ticket with
    | .error e => .error e
    | .ok (payload, signature) =>
      if lib.verify issuer (ascii "BPC-P2P-GRANT-v1" ++ 0 :: payload) signature = false then
        .error "invalid P2P grant signature"
      else
        match lib.decodeGrant payload with
        | .error e => .error e
        | .ok g =>
          match g.validate lib now with
          | .error e => .error e
          | .ok () =>
            if g.clusterID ≠ cluster ∨ g.revision < minRevision then
              .error "P2P grant cluster/revision mismatch"
            else .ok
              { grant := g, ticket, deadline := now + Time.sub (Time.ofUnix g.expiresAt) now,
                managed := false, authorization := none }

/-- `Active`. -/
def Session.active (s : Session) (now : Int) : Bool :=
  (!s.managed ||
    match s.authorization with
    | none => false
    | some policy => decide (Time.unix now < policy.expiresAt) && decide (now < policy.deadline)) &&
  decide (s.grant.issuedAt ≤ Time.unix now) && decide (Time.unix now < s.grant.expiresAt) &&
  decide (now < s.deadline)

/-! ## What verification gives -/

/-- The lifetime of a grant that was accepted at the instant `now`. -/
structure Grant.Fresh (g : Grant) (now : Int) : Prop where
  issued : g.issuedAt ≤ Time.unix now
  unexpired : Time.unix now < g.expiresAt
  lease : g.expiresAt ≤ g.issuedAt + maxLease

theorem Grant.Fresh.deadline_eq {g : Grant} {now : Int} (h : g.Fresh now) :
    now + Time.sub (Time.ofUnix g.expiresAt) now = Time.ofUnix g.expiresAt := by
  have hlate : Time.ofUnix g.expiresAt ≤ Time.ofUnix (Time.unix now) + 60 * Time.second := by
    have hissued := h.issued
    have hlease := h.lease
    unfold maxLease at hlease
    unfold Time.ofUnix Time.second
    omega
  have hsoon := Time.unix_lt_iff.mp h.unexpired
  have hnow := Time.ofUnix_unix_le now
  unfold Time.second at hlate
  unfold Time.sub
  omega

variable {lib}

theorem Grant.validate_ok {g : Grant} {now : Int} (h : g.validate lib now = .ok ()) :
    g.Fresh now := by
  unfold Grant.validate at h
  split at h
  · cases h
  split at h
  · cases h
  split at h
  · cases h
  · next hlife =>
    simp only [not_or, not_lt, not_le] at hlife
    obtain ⟨-, hissued, hexp, hlease⟩ := hlife
    exact ⟨hissued, hexp, by omega⟩

/-- **A verified session** holds its ticket, and its deadline is the end of its lease. -/
theorem verifyGrant_ok {ticket issuer cluster : GoString} {minRevision : Nat} {now : Int}
    {s : Session} (h : verifyGrant lib ticket issuer cluster minRevision now = .ok s) :
    s.ticket = ticket ∧ s.managed = false ∧ s.authorization = none ∧ s.grant.Fresh now ∧
      s.deadline = Time.ofUnix s.grant.expiresAt := by
  unfold verifyGrant at h
  split at h
  · cases h
  split at h
  · cases h
  split at h
  · cases h
  split at h
  · cases h
  split at h
  · cases h
  · next hvalid =>
    split at h
    · cases h
    · cases h
      have hfresh := Grant.validate_ok hvalid
      exact ⟨rfl, rfl, rfl, hfresh, hfresh.deadline_eq⟩

/-- **A session is active exactly during its lease.** -/
theorem Session.active_iff {s : Session} (hmanaged : s.managed = false)
    (hdeadline : s.deadline = Time.ofUnix s.grant.expiresAt) {now : Int} :
    s.active now = true ↔
      s.grant.issuedAt ≤ Time.unix now ∧ Time.unix now < s.grant.expiresAt := by
  have hlt : now < s.deadline ↔ Time.unix now < s.grant.expiresAt := by
    rw [hdeadline]
    exact Time.unix_lt_iff.symm
  simp only [active, hmanaged, Bool.not_false, Bool.true_or, Bool.true_and, Bool.and_eq_true,
    decide_eq_true_eq, hlt]
  tauto

/-! ## A grant that is accepted -/

/-- Device number `n`. -/
def pilotDevice (n : UInt8) : Participant :=
  { deviceID := [n], userID := [111], identityKey := List.replicate 32 n
    wireGuardKey := List.replicate 32 (n + 100), address := .v4 10 253 0 n }

/-- A grant of sixty seconds. -/
def pilotGrant : Grant :=
  { version := 1, clusterID := [99], sessionID := List.replicate 32 48, revision := 7
    issuedAt := 1700000000, expiresAt := 1700000060, service := sunshine
    participants := (pilotDevice 2, pilotDevice 3) }

/-- A library that knows one ticket. -/
def pilotGrantLib : GrantLib where
  decodeEnvelope t := .ok (t, [])
  decodeGrant p := if p = [1] then .ok pilotGrant else .error "invalid P2P document"
  verify _ _ _ := true
  sha256 b := b
  decodeBase64 s := some s
  encodeBase64 b := b

/-- Its session. -/
def pilotSession : Session :=
  { grant := pilotGrant, ticket := [1], deadline := Time.ofUnix 1700000060, managed := false
    authorization := none }

example : verifyGrant pilotGrantLib [1] (List.replicate 32 1) [99] 0 (Time.ofUnix 1700000001) =
    .ok pilotSession := by decide +kernel

end Bpc.P2P
