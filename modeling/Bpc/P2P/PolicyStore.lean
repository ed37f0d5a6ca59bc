/-
  The POLICY STORE of an endpoint (`internal/p2p/authority.go`): which tracked sessions the last
  signed checkpoint allows, and what of that survives a restart.

  The DISK holds one record, the PROCESS the tracked sessions; those that left the table are
  `retired`.  A transaction is all or nothing.  `Apply` takes two steps, since it persists before
  it activates: in between only a crash can happen.
-/
import Bpc.P2P.Grant
import Bpc.Lib.SortedMap

namespace Bpc.P2P

open Routed (GoString ascii)

/-! ## Data -/

/-- The number of denials at most. -/
def maxDenied : Nat := 4096

/-- `Trust`. -/
structure Trust where
  clusterID : GoString
  deviceID : GoString
  issuer : GoString
  deriving DecidableEq

/-- `policyEntry`. -/
structure PolicyEntry where
  sessionID : GoString
  ticketSHA256 : GoString
  deriving DecidableEq

/-- `checkpoint`. -/
structure Checkpoint where
  version : Int
  clusterID : GoString
  deviceID : GoString
  revision : Nat
  issuedAt : Int
  expiresAt : Int
  allowed : List PolicyEntry
  deriving DecidableEq

/-- The record on disk. -/
structure PolicyState where
  version : Int
  trust : Trust
  revision : Nat
  issuedAt : Int
  denied : SortedMap GoString Int
  reserved : List Addr

/-- `PolicyStore`, while its database is open. -/
structure PolicyStore where
  trust : Trust
  sessions : SortedMap GoString Session

/-- What the store imports besides the library of the grants. -/
structure StoreLib extends GrantLib where
  /-- `decodeStrict` into a `checkpoint`. -/
  decodeCheckpoint : GoString → Except String Checkpoint

/-- No file, a file without the bucket, or a record. -/
inductive Disk where
  | absent
  | unowned
  | holding (state : PolicyState)

/-- A checkpoint that is on disk and not in force yet. -/
structure Activation where
  policy : Checkpoint
  allowed : List GoString
  now : Int

/-- The disk, the process, and what is pending. -/
structure World where
  disk : Disk
  store : Option PolicyStore
  retired : List Session
  activation : Option Activation

/-! ## The stored record -/

/-- `state`: the record, if it belongs to this store. -/
def PolicyState.check (st : PolicyState) (trust : Trust) : Except String Unit :=
  if st.version ≠ 1 ∨ st.trust ≠ trust ∨ maxDenied < st.denied.size then
    .error "P2P stored trust/state mismatch"
  else if maxManagedSessions < st.reserved.length then .error "invalid P2P reservations"
  else if st.reserved.all (fun ip => ip.is4 && ip.isPrivate) = false ∨ ¬st.reserved.Nodup then
    .error "invalid P2P reservation"
  else .ok ()

/-- A bolt transaction that replaces the record. -/
def World.update (w : World) (trust : Trust) (written : Bool)
    (body : PolicyState → Except String PolicyState) : Except String World :=
  match w.disk with
  | .holding st =>
    match st.check trust with
    | .error e => .error e
    | .ok () =>
      match body st with
      | .error e => .error e
      | .ok st' => if written then .ok { w with disk := .holding st' } else .error "bolt"
  | _ => .error "P2P policy state missing"

/-! ## Opening -/

/-- The pin that `openPolicyStore` accepts. -/
def Trust.valid (t : Trust) : Bool := t.clusterID ≠ [] && t.deviceID ≠ [] && t.issuer.length == 32

/-- The first record. -/
def PolicyState.initial (trust : Trust) : PolicyState :=
  { version := 1, trust, revision := 0, issuedAt := 0, denied := ∅, reserved := [] }

/-- `CreatePolicyStore`; one store is open at a time. -/
def World.create (w : World) (trust : Trust) (written : Bool) : World × Except String Unit :=
  if trust.valid = false then (w, .error "invalid P2P trust pin")
  else
    match w.disk, w.store with
    | .absent, none =>
      if written then
        ({ w with
            disk := .holding (PolicyState.initial trust)
            store := some { trust, sessions := ∅ } }, .ok ())
      else ({ w with disk := .unowned }, .error "bolt")
    | _, _ => (w, .error "exists")

/-- `OpenPolicyStore`. -/
def World.reopen (w : World) (trust : Trust) : World × Except String Unit :=
  if trust.valid = false then (w, .error "invalid P2P trust pin")
  else
    match w.disk, w.store with
    | .holding st, none =>
      match st.check trust with
      | .error e => (w, .error e)
      | .ok () => ({ w with store := some { trust, sessions := ∅ } }, .ok ())
    | .unowned, none => (w, .error "unowned P2P policy store")
    | .absent, none => (w, .error "no such file")
    | _, some _ => (w, .error "timeout")

/-! ## `Track` -/

/-- The address of the other Device. -/
def Grant.remote (g : Grant) (trust : Trust) : Addr :=
  if g.participants.1.deviceID = trust.deviceID then g.participants.2.address
  else g.participants.1.address

/-- The transaction of `Track`: the address is reserved. -/
def reserve (trust : Trust) (g : Grant) (now : Int) (st : PolicyState) :
    Except String PolicyState :=
  if Time.unix now < (st.denied[g.sessionID]?).getD 0 then .error "P2P session was revoked"
  else if g.remote trust ∈ st.reserved then .ok st
  else if maxManagedSessions ≤ st.reserved.length then
    .error "P2P reservation capacity exhausted"
  else .ok { st with reserved := st.reserved ++ [g.remote trust] }

/-- The sessions that expired by the reading of the clock made for them. -/
def PolicyStore.expired (p : PolicyStore) (clock : GoString → Int) : SortedMap GoString Session :=
  p.sessions.filter fun id s => decide (s.grant.expiresAt ≤ Time.unix (clock id))

/-- The sessions whose grants have not ended. -/
def PolicyStore.unexpired (p : PolicyStore) (clock : GoString → Int) : SortedMap GoString Session :=
  p.sessions.filter fun id s => decide (Time.unix (clock id) < s.grant.expiresAt)

/-- The sessions of a table. -/
def sessionsOf (table : SortedMap GoString Session) : List Session := table.toList.map Prod.snd

theorem mem_sessionsOf {table : SortedMap GoString Session} {s : Session} :
    s ∈ sessionsOf table ↔ ∃ id : GoString, table[id]? = some s := by
  unfold sessionsOf
  simp only [List.mem_map, Prod.exists, SortedMap.mem_toList]
  exact ⟨fun ⟨id, _, h, he⟩ => ⟨id, he ▸ h⟩, fun ⟨id, h⟩ => ⟨id, s, h, rfl⟩⟩

/-- Expired sessions lose their authorization and leave the table. -/
def World.expire (w : World) (p : PolicyStore) (clock : GoString → Int) : World :=
  { w with
    store := some { p with sessions := p.unexpired clock }
    retired := (sessionsOf (p.expired clock)).map (·.authorized none) ++ w.retired }

/-- The end of `Track`: the session is known, or is added to the table. -/
def World.enlist (w : World) (p : PolicyStore) (s : Session) : World × Except String Unit :=
  match p.sessions[s.grant.sessionID]? with
  | some old => (w, if old.ticket = s.ticket then .ok () else .error "P2P session ID reused")
  | none =>
    if maxManagedSessions ≤ p.sessions.size then (w, .error "too many managed P2P sessions")
    else
      ({ w with store := some { p with
          sessions := p.sessions.insert s.grant.sessionID { s with managed := true } } }, .ok ())

variable (lib : StoreLib)

/-- `Track`, with its three kinds of clock readings. -/
def World.track (w : World) (ticket : GoString) (now later : Int) (clock : GoString → Int)
    (written : Bool) : World × Except String Unit :=
  match w.store with
  | none => (w, .error "P2P policy store closed")
  | some p =>
    match verifyGrant lib.toGrantLib ticket p.trust.issuer p.trust.clusterID 0 now with
    | .error e => (w, .error e)
    | .ok s =>
      if s.grant.participants.1.deviceID ≠ p.trust.deviceID ∧
          s.grant.participants.2.deviceID ≠ p.trust.deviceID then
        (w, .error "P2P grant belongs to another Device")
      else
        match w.update p.trust written (reserve p.trust s.grant later) with
        | .error e => (w, .error e)
        | .ok w' => (w'.expire p clock).enlist { p with sessions := p.unexpired clock } s

/-! ## `FailClosed`, `Stop` and `Close` -/

/-- `failClosed`. -/
def PolicyStore.failClosed (p : PolicyStore) : PolicyStore :=
  { p with sessions := p.sessions.map fun _ s => s.authorized none }

/-- `FailClosed`. -/
def World.failClosed (w : World) : World :=
  { w with store := w.store.map PolicyStore.failClosed }

/-- The transaction of `Stop`; `clock` is read for each denial. -/
def stopSession (id : GoString) (expiresAt : Int) (clock : GoString → Int) (st : PolicyState) :
    Except String PolicyState :=
  let denied := st.denied.filter fun id expiry => decide (Time.unix (clock id) < expiry)
  if maxDenied ≤ denied.size then .error "P2P revocation capacity exhausted"
  else .ok { st with denied := denied.insert id expiresAt }

/-- `Stop`. -/
def World.stop (w : World) (id : GoString) (clock : GoString → Int) (written : Bool) :
    World × Except String Unit :=
  match w.failClosed.store with
  | none => (w.failClosed, .error "P2P policy store closed")
  | some p =>
    match p.sessions[id]? with
    | none => (w.failClosed, .error "unknown P2P session")
    | some s =>
      match w.failClosed.update p.trust written (stopSession id s.grant.expiresAt clock) with
      | .error e => (w.failClosed, .error e)
      | .ok w' => (w', .ok ())

/-- `Close`: the callers keep the sessions, without their authorizations. -/
def World.close (w : World) : World :=
  match w.failClosed.store with
  | none => w
  | some p => { w with store := none, retired := sessionsOf p.sessions ++ w.retired }

/-! ## `Apply` -/

/-- The digest of a ticket. -/
def ticketHash (ticket : GoString) : GoString := encodeHex (lib.sha256 ticket)

/-- The loop over the entries; `seen` are the ids allowed so far. -/
def PolicyStore.allow (p : PolicyStore) (revision : Nat) :
    List PolicyEntry → List GoString → Except String (List GoString)
  | [], seen => .ok seen
  | entry :: rest, seen =>
    match p.sessions[entry.sessionID]? with
    | none => .error "unknown/duplicate P2P policy session"
    | some s =>
      if entry.sessionID ∈ seen ∨ revision < s.grant.revision then
        .error "unknown/duplicate P2P policy session"
      else if entry.ticketSHA256 ≠ ticketHash lib s.ticket then
        .error "P2P policy ticket mismatch"
      else p.allow revision rest (entry.sessionID :: seen)

/-- The tests on a checkpoint, and the ids it allows. -/
def PolicyStore.readCheckpoint (p : PolicyStore) (ticket : GoString) (now : Int) :
    Except String (Checkpoint × List GoString) :=
  if maxTicket < ticket.length then .error "invalid P2P checkpoint/store"
  else
    match lib.decodeEnvelope ticket with
    | .error e => .error e
    | .ok (payload, signature) =>
      if lib.verify p.trust.issuer (ascii "BPC-P2P-POLICY-v1" ++ 0 :: payload) signature =
          false then
        .error "invalid P2P policy signature"
      else
        match lib.decodeCheckpoint payload with
        | .error e => .error e
        | .ok policy =>
          if policy.version ≠ 1 ∨ policy.clusterID ≠ p.trust.clusterID ∨
              policy.deviceID ≠ p.trust.deviceID ∨ policy.revision = 0 ∨ policy.issuedAt ≤ 0 ∨
              Time.unix now < policy.issuedAt ∨ policy.expiresAt ≤ Time.unix now ∨
              30 < policy.expiresAt - policy.issuedAt ∨
              maxManagedSessions < policy.allowed.length then
            .error "invalid P2P policy scope/lifetime"
          else
            match p.allow lib policy.revision policy.allowed [] with
            | .error e => .error e
            | .ok allowed => .ok (policy, allowed)

/-- The tracked sessions that a checkpoint omits. -/
def PolicyStore.omitted (p : PolicyStore) (allowed : List GoString) : List (GoString × Int) :=
  (p.sessions.filter fun id _ => decide (id ∉ allowed)).toList.map fun e =>
    (e.1, e.2.grant.expiresAt)

/-- The transaction of `Apply`: floors rise, the omitted are denied. -/
def PolicyStore.persist (p : PolicyStore) (policy : Checkpoint) (allowed : List GoString)
    (now : Int) (st : PolicyState) : Except String PolicyState :=
  if policy.revision ≤ st.revision ∨ policy.issuedAt < st.issuedAt then
    .error "P2P policy rollback/replay"
  else
    let denied := st.denied.filter fun _ expiry => decide (Time.unix now < expiry)
    if p.sessions.toList.any (fun e =>
        decide (e.1 ∈ allowed) && decide (Time.unix now < (denied[e.1]?).getD 0)) then
      .error "revoked P2P ticket cannot be reauthorized"
    else
      let denied := SortedMap.insertPairs denied (p.omitted allowed)
      if maxDenied < denied.size then .error "P2P revocation capacity exhausted"
      else .ok { st with denied, revision := policy.revision, issuedAt := policy.issuedAt }

/-- `Apply`, up to its transaction.  Every error fails closed. -/
def World.apply (w : World) (ticket : GoString) (now : Int) (written : Bool) :
    World × Except String Unit :=
  match w.store with
  | none => (w.failClosed, .error "invalid P2P checkpoint/store")
  | some p =>
    match p.readCheckpoint lib ticket now with
    | .error e => (w.failClosed, .error e)
    | .ok (policy, allowed) =>
      match w.update p.trust written (p.persist policy allowed now) with
      | .error e => (w.failClosed, .error e)
      | .ok w' => ({ w' with activation := some { policy, allowed, now } }, .ok ())

/-- The earlier of two instants. -/
def earlier (a b : Int) : Int := if a < b then a else b

/-- What `Apply` stores in a tracked session. -/
def Activation.authorize (a : Activation) (id : GoString) (s : Session) : Session :=
  s.authorized
    (if id ∈ a.allowed then
      some { deadline :=
               earlier (a.now + Time.sub (Time.ofUnix a.policy.expiresAt) a.now) s.deadline
             expiresAt := a.policy.expiresAt }
    else none)

/-- `Apply`, after its transaction. -/
def World.activate (w : World) : World :=
  match w.activation, w.store with
  | some a, some p =>
    { w with
      store := some { p with sessions := p.sessions.map a.authorize }
      activation := none }
  | _, _ => w

/-- The process dies: the disk is what is left. -/
def World.crash (w : World) : World :=
  { disk := w.disk, store := none, retired := [], activation := none }

/-! ## What each method does -/

theorem World.update_ok {w w' : World} {trust : Trust} {written : Bool}
    {body : PolicyState → Except String PolicyState} (h : w.update trust written body = .ok w') :
    ∃ st st', w.disk = .holding st ∧ body st = .ok st' ∧ w' = { w with disk := .holding st' } ∧
      st.check trust = .ok () ∧ written = true := by
  unfold update at h
  split at h
  · next st hdisk =>
    split at h
    · cases h
    next hcheck =>
    split at h
    · cases h
    next st' hbody =>
    split at h
    · next hwritten =>
      cases h
      exact ⟨st, st', hdisk, hbody, rfl, hcheck, hwritten⟩
    · cases h
  · cases h

theorem reserve_ok {trust : Trust} {g : Grant} {now : Int} {st st' : PolicyState}
    (h : reserve trust g now st = .ok st') :
    (st.denied[g.sessionID]?).getD 0 ≤ Time.unix now ∧ st'.denied = st.denied ∧
      st'.revision = st.revision ∧ st'.issuedAt = st.issuedAt := by
  unfold reserve at h
  split at h
  · cases h
  next hdenied =>
  refine ⟨by omega, ?_⟩
  split at h
  · cases h
    exact ⟨rfl, rfl, rfl⟩
  split at h
  · cases h
  · cases h
    exact ⟨rfl, rfl, rfl⟩

theorem PolicyStore.get_failClosed (p : PolicyStore) (id : GoString) :
    p.failClosed.sessions[id]? = p.sessions[id]?.map (·.authorized none) :=
  Std.ExtTreeMap.getElem?_map

theorem Activation.get_map (a : Activation) (p : PolicyStore) (id : GoString) :
    (p.sessions.map a.authorize)[id]? = p.sessions[id]?.map (a.authorize id) :=
  Std.ExtTreeMap.getElem?_map

theorem PolicyStore.get_unexpired {p : PolicyStore} {clock : GoString → Int} {id : GoString}
    {s : Session} (h : (p.unexpired clock)[id]? = some s) : p.sessions[id]? = some s := by
  unfold unexpired at h
  rw [Std.ExtTreeMap.getElem?_filter'] at h
  exact (Option.filter_eq_some_iff.mp h).1

theorem PolicyStore.get_expired {p : PolicyStore} {clock : GoString → Int} {id : GoString}
    {s : Session} (h : (p.expired clock)[id]? = some s) : p.sessions[id]? = some s := by
  unfold expired at h
  rw [Std.ExtTreeMap.getElem?_filter'] at h
  exact (Option.filter_eq_some_iff.mp h).1

theorem PolicyStore.mem_omitted {p : PolicyStore} {allowed : List GoString} {id : GoString}
    {expiry : Int} : (id, expiry) ∈ p.omitted allowed ↔
      id ∉ allowed ∧ ∃ s, p.sessions[id]? = some s ∧ expiry = s.grant.expiresAt := by
  unfold omitted
  simp only [List.mem_map, Prod.exists, Prod.mk.injEq, SortedMap.mem_toList,
    SortedMap.get_filter p.sessions (fun id => decide (id ∉ allowed))]
  constructor
  · rintro ⟨a, s, hget, rfl, rfl⟩
    split at hget
    · next hnot => exact ⟨by simpa using hnot, s, hget, rfl⟩
    · cases hget
  · rintro ⟨hnot, s, hget, rfl⟩
    exact ⟨id, s, by rw [if_pos (by simpa using hnot), hget], rfl, rfl⟩

theorem PolicyStore.nodup_omitted (p : PolicyStore) (allowed : List GoString) :
    ((p.omitted allowed).map Prod.fst).Nodup := by
  unfold omitted
  rw [List.map_map]
  exact SortedMap.nodup_keys_toList _

theorem PolicyStore.allow_ok {p : PolicyStore} {revision : Nat} :
    ∀ {entries : List PolicyEntry} {seen allowed : List GoString},
      p.allow lib revision entries seen = .ok allowed → ∀ id ∈ allowed,
        id ∈ seen ∨ ∃ s, p.sessions[id]? = some s ∧ ⟨id, ticketHash lib s.ticket⟩ ∈ entries
  | [], seen, allowed, h, id, hid => by
    cases h
    exact Or.inl hid
  | entry :: rest, seen, allowed, h, id, hid => by
    unfold allow at h
    split at h
    · cases h
    next s hget =>
    split at h
    · cases h
    split at h
    · cases h
    next hhash =>
    rcases allow_ok h id hid with hseen | ⟨t, ht, hmem⟩
    · rcases List.mem_cons.mp hseen with rfl | hseen
      · refine Or.inr ⟨s, hget, List.mem_cons.mpr (Or.inl ?_)⟩
        rw [← not_not.mp hhash]
      · exact Or.inl hseen
    · exact Or.inr ⟨t, ht, List.mem_cons_of_mem _ hmem⟩

/-- **An accepted checkpoint** raises the floors, keeps the denials that count, denies what it
    omits and allows nothing denied. -/
structure PolicyStore.Persisted (p : PolicyStore) (policy : Checkpoint) (allowed : List GoString)
    (now : Int) (st st' : PolicyState) : Prop where
  revision : st.revision < policy.revision ∧ st'.revision = policy.revision
  issuedAt : st.issuedAt ≤ policy.issuedAt ∧ st'.issuedAt = policy.issuedAt
  omitted : ∀ e ∈ p.omitted allowed, st'.denied[e.1]? = some e.2
  kept : ∀ (id : GoString) (d : Int), st.denied[id]? = some d → Time.unix now < d →
    id ∉ (p.omitted allowed).map Prod.fst → st'.denied[id]? = some d
  allowed : ∀ (id : GoString) (s : Session), id ∈ allowed → p.sessions[id]? = some s →
    (st'.denied[id]?).getD 0 ≤ Time.unix now

theorem PolicyStore.persist_ok {p : PolicyStore} {policy : Checkpoint} {allowed : List GoString}
    {now : Int} {st st' : PolicyState} (h : p.persist policy allowed now st = .ok st') :
    p.Persisted policy allowed now st st' := by
  unfold persist at h
  dsimp only at h
  split at h
  · cases h
  next hfloor =>
  split at h
  · cases h
  next hdenied =>
  split at h
  · cases h
  cases h
  refine ⟨⟨by omega, rfl⟩, ⟨by omega, rfl⟩, fun e he => ?_, fun id d hget hlt hnot => ?_,
    fun id s hid hs => ?_⟩
  · exact SortedMap.get_insertPairs_of_mem (p.nodup_omitted allowed) he
  · show (SortedMap.insertPairs _ _)[id]? = some d
    rw [SortedMap.get_insertPairs_outside hnot, Std.ExtTreeMap.getElem?_filter', hget]
    simp [hlt]
  · have hnot : id ∉ (p.omitted allowed).map Prod.fst := by
      rintro hmem
      obtain ⟨e, he, rfl⟩ := List.mem_map.mp hmem
      exact (mem_omitted.mp he).1 hid
    show ((SortedMap.insertPairs _ _)[id]?).getD 0 ≤ _
    rw [SortedMap.get_insertPairs_outside hnot]
    by_contra hlt
    refine hdenied (List.any_eq_true.mpr ⟨(id, s), SortedMap.mem_toList.mpr hs, ?_⟩)
    simp only [Bool.and_eq_true, decide_eq_true_eq]
    exact ⟨hid, by omega⟩

end Bpc.P2P
