/-
  The SESSION RELAY (`internal/p2p/relay.go`): rooms, tombstones and connection handlers.

  `revoke` and `attach` run under the lock.  Rooms are objects on a heap: a handler keeps its room,
  also after it has left the table.  `attach_cases` says what `attach` can do.
-/
import Bpc.P2P.Grant
import Bpc.Lib.SortedMap

namespace Bpc.P2P

open Routed (GoString ascii)

/-! ## Data -/

/-- `MaxLease`, as a duration. -/
def maxLeaseDuration : Int := maxLease * Time.second

/-- The number of tombstones at most. -/
def maxTombstones : Nat := 4096

/-- The number of rooms at most. -/
def maxRooms : Nat := 64

/-- `relaySession`; a peer is the number of its handler. -/
structure Room where
  session : Session
  hash : GoString
  peers : Side → Option Nat
  joined : Side → Bool
  revoked : Bool

/-- `Relay`. -/
structure Relay where
  issuer : GoString
  cluster : GoString
  revision : Nat
  sessions : SortedMap GoString Nat
  denied : SortedMap GoString Int
  denyUntil : Int
  /-- The heap: room number `i`, for `i` below `fresh`. -/
  rooms : Nat → Option Room
  fresh : Nat

/-- `NewRelay`. -/
def newRelay (issuer cluster : GoString) (minRevision : Nat) : Except String Relay :=
  if issuer.length ≠ 32 ∨ cluster = [] then .error "P2P relay trust required"
  else .ok { issuer, cluster, revision := minRevision, sessions := ∅, denied := ∅,
             denyUntil := Time.zero, rooms := fun _ => none, fresh := 0 }

/-! ## `Revoke` -/

/-- The room is marked; its connections are closed with it. -/
def Relay.markRevoked (r : Relay) (id : GoString) : Relay :=
  match r.sessions[id]? with
  | none => r
  | some i => { r with
      rooms := Function.update r.rooms i
        ((r.rooms i).map fun room => { room with revoked := true }) }

/-- A tombstone of its own, or a time during which nobody attaches. -/
def Relay.bury (r : Relay) (id : GoString) (now : Int) : Relay :=
  let denied := r.denied.filter fun _ till => decide (now < till)
  if denied.size < maxTombstones then
    { r with denied := denied.insert id (now + maxLeaseDuration) }
  else { r with denied, denyUntil := now + maxLeaseDuration }

/-- `Revoke`. -/
def Relay.revoke (r : Relay) (id : GoString) (now : Int) : Relay := (r.bury id now).markRevoked id

/-! ## `attach` -/

/-- The room number is that of a session that is active. -/
def Relay.roomActive (r : Relay) (now : Int) (i : Nat) : Bool :=
  match r.rooms i with
  | none => false
  | some room => room.session.active now

/-- The rooms that `attach` leaves in the table. -/
def Relay.activeSessions (r : Relay) (now : Int) : SortedMap GoString Nat :=
  r.sessions.filter fun _ i => r.roomActive now i

/-- A side is taken. -/
def Room.join (room : Room) (side : Side) (peer : Nat) : Room :=
  { room with
    joined := Function.update room.joined side true
    peers := Function.update room.peers side (some peer) }

/-- A new room. -/
def Room.empty (s : Session) (hash : GoString) : Room :=
  { session := s, hash, peers := fun _ => none, joined := fun _ => false, revoked := false }

variable (lib : GrantLib)

/-- `attach`: the room number, or `none` for `nil`. -/
def Relay.attach (r : Relay) (s : Session) (side : Side) (peer : Nat) (now : Int) :
    Relay × Option Nat :=
  if now < r.denyUntil ∨ now < (r.denied[s.grant.sessionID]?).getD Time.zero then (r, none)
  else
    let sessions := r.activeSessions now
    match sessions[s.grant.sessionID]? with
    | none =>
      if maxRooms ≤ sessions.size then ({ r with sessions }, none)
      else
        ({ r with
            sessions := sessions.insert s.grant.sessionID r.fresh
            rooms := Function.update r.rooms r.fresh
              (some ((Room.empty s (lib.sha256 s.ticket)).join side peer))
            fresh := r.fresh + 1 }, some r.fresh)
    | some i =>
      match r.rooms i with
      | none => ({ r with sessions }, none)
      | some room =>
        if room.hash ≠ lib.sha256 s.ticket ∨ room.revoked = true ∨ room.joined side = true then
          ({ r with sessions }, none)
        else
          ({ r with sessions, rooms := Function.update r.rooms i (some (room.join side peer)) },
            some i)

/-! ## Handlers -/

/-- `binary.LittleEndian.Uint32(p[:4])`. -/
def littleEndian32 (p : GoString) : Nat :=
  (p.getD 0 0).toNat + (p.getD 1 0).toNat * 256 + (p.getD 2 0).toNat * 65536 +
    (p.getD 3 0).toNat * 16777216

/-- `maxDatagram`. -/
def maxDatagram : Nat := 4096

/-- `wireGuardPacket`. -/
def wireGuardPacket (p : GoString) : Bool :=
  if p.length < 4 then false
  else
    match littleEndian32 p with
    | 1 => p.length == 148
    | 2 => p.length == 92
    | 3 => p.length == 64
    | 4 => decide (32 ≤ p.length) && decide (p.length ≤ maxDatagram) && p.length % 16 == 0
    | _ => false

/-- The number of a side. -/
def Side.byte : Side → UInt8
  | .initiator => 0
  | .host => 1

/-- The text that a Device signs. -/
def proofMessage (challenge ticket : GoString) (side : Side) (binding : GoString) : GoString :=
  ascii "BPC-P2P-RELAY-PROOF-v1" ++ 0 :: challenge ++ lib.sha256 ticket ++ [side.byte] ++
    binding

/-- Where a handler stands. -/
inductive Stage where
  /-- The ticket is verified and the Device has proved its identity. -/
  | verified
  /-- In a room, waiting for a packet. -/
  | attached (room : Nat)
  /-- A packet was read, by the event of the given number. -/
  | holding (room : Nat) (packet : GoString) (read : Nat)
  /-- The room was found valid; the packet goes to the other side. -/
  | sending (room : Nat) (packet : GoString) (read : Nat) (target : Nat)
  /-- About to run the deferred `Revoke`. -/
  | leaving
  | gone

/-- A connection handler. -/
structure Handler where
  session : Session
  side : Side
  stage : Stage

/-- A packet that was written to the other side. -/
structure Forwarded where
  handler : Nat
  session : Session
  packet : GoString
  read : Nat
  target : Nat

/-- A successful `attach`. -/
structure Attachment where
  session : Session
  side : Side
  room : Nat
  now : Int

/-- A relay with its handlers, the clock, the events so far, and what happened. -/
structure Machine where
  relay : Relay
  handlers : Nat → Option Handler
  clock : Int
  events : Nat
  forwarded : List Forwarded
  attachments : List Attachment

/-- What can happen; every event reads the clock. -/
inductive RelayEvent where
  | revoke (id : GoString)
  /-- A connection up to its proof of identity. -/
  | connect (handler : Nat) (ticket : GoString) (side : Side) (challenge binding proof : GoString)
  | attach (handler : Nat)
  | read (handler : Nat) (packet : GoString)
  | check (handler : Nat)
  /-- The write to the other side; on an error the handler leaves. -/
  | forward (handler : Nat) (written : Bool)
  /-- A read fails, or the acknowledgement cannot be written. -/
  | fail (handler : Nat)
  | leave (handler : Nat)

/-- A handler goes on. -/
def Machine.goto (m : Machine) (h : Nat) (hd : Handler) (stage : Stage) : Machine :=
  { m with handlers := Function.update m.handlers h (some { hd with stage }) }

/-- The ticket is checked, then the proof of the side's identity. -/
def Machine.connect (m : Machine) (h : Nat) (ticket : GoString) (side : Side)
    (challenge binding proof : GoString) (now : Int) : Machine :=
  match m.handlers h with
  | some _ => m
  | none =>
    match verifyGrant lib ticket m.relay.issuer m.relay.cluster m.relay.revision now with
    | .error _ => m
    | .ok s =>
      let identity := (lib.decodeBase64 (s.grant.participant side).identityKey).getD []
      if lib.verify identity (proofMessage lib challenge ticket side binding) proof then
        { m with handlers := Function.update m.handlers h (some ⟨s, side, .verified⟩) }
      else m

/-- The call of `attach`; the log names the rooms that were entered. -/
def Machine.attach (m : Machine) (h : Nat) (now : Int) : Machine :=
  match m.handlers h with
  | some hd@⟨s, side, .verified⟩ =>
    let result := m.relay.attach lib s side h now
    let m' : Machine := { m with relay := result.1 }
    match result.2 with
    | none => m'.goto h hd .gone
    | some room =>
      { m'.goto h hd (.attached room) with
        attachments := ⟨s, side, room, now⟩ :: m.attachments }
  | _ => m

/-- The test on the room, under the lock, and what follows from it. -/
def Machine.check (m : Machine) (h : Nat) (now : Int) : Machine :=
  match m.handlers h with
  | some hd@⟨_, side, .holding i packet read⟩ =>
    match m.relay.rooms i with
    | none => m.goto h hd .leaving
    | some room =>
      if room.revoked || !room.session.active now then m.goto h hd .leaving
      else if wireGuardPacket packet then
        match room.peers side.other with
        | none => m.goto h hd (.attached i)
        | some target => m.goto h hd (.sending i packet read target)
      else m.goto h hd (.attached i)
  | _ => m

/-- The packet is written to the peer. -/
def Machine.forward (m : Machine) (h : Nat) (written : Bool) : Machine :=
  match m.handlers h with
  | some hd@⟨s, _, .sending i packet read target⟩ =>
    if written then
      { m.goto h hd (.attached i) with
        forwarded := ⟨h, s, packet, read, target⟩ :: m.forwarded }
    else m.goto h hd .leaving
  | _ => m

/-- The effect of an event at the instant `now`. -/
def Machine.effect (m : Machine) (event : RelayEvent) (now : Int) : Machine :=
  match event with
  | .revoke id => { m with relay := m.relay.revoke id now }
  | .connect h ticket side challenge binding proof =>
    m.connect lib h ticket side challenge binding proof now
  | .attach h => m.attach lib h now
  | .read h packet =>
    match m.handlers h with
    | some hd@⟨_, _, .attached i⟩ =>
      if 0 < packet.length ∧ packet.length ≤ maxDatagram then
        m.goto h hd (.holding i packet m.events)
      else m.goto h hd .leaving
    | _ => m
  | .check h => m.check h now
  | .forward h written => m.forward h written
  | .fail h =>
    match m.handlers h with
    | some hd@⟨_, _, .attached _⟩ => m.goto h hd .leaving
    | _ => m
  | .leave h =>
    match m.handlers h with
    | some hd@⟨s, _, .leaving⟩ =>
      { m with relay := m.relay.revoke s.grant.sessionID now }.goto h hd .gone
    | _ => m

/-- One event, counted. -/
def Machine.step (m : Machine) (event : RelayEvent × Int) : Machine :=
  { m.effect lib event.1 event.2 with clock := event.2, events := m.events + 1 }

/-- The clock does not go back. -/
def Machine.Later (m : Machine) (event : RelayEvent × Int) : Prop := m.clock ≤ event.2

/-- A new relay. -/
def Machine.start (r : Relay) (clock : Int) : Machine :=
  { relay := r, handlers := fun _ => none, clock, events := 0, forwarded := [],
    attachments := [] }

/-! ## What `attach` can do -/

/-- Nobody is kept out by a tombstone. -/
def Relay.Admits (r : Relay) (id : GoString) (now : Int) : Prop :=
  r.denyUntil ≤ now ∧ ∀ till, r.denied[id]? = some till → till ≤ now

/-- A side is taken, in a new room or in the one that is there. -/
inductive Relay.Enters (r : Relay) (s : Session) (side : Side) (peer : Nat) (now : Int) :
    Relay → Nat → Prop
  | opened (hfree : (r.activeSessions now)[s.grant.sessionID]? = none) :
    Enters r s side peer now
      { r with
        sessions := (r.activeSessions now).insert s.grant.sessionID r.fresh
        rooms := Function.update r.rooms r.fresh
          (some ((Room.empty s (lib.sha256 s.ticket)).join side peer))
        fresh := r.fresh + 1 } r.fresh
  | joined (i : Nat) (room : Room) (htable : (r.activeSessions now)[s.grant.sessionID]? = some i)
      (hroom : r.rooms i = some room) (hhash : room.hash = lib.sha256 s.ticket)
      (hfree : room.joined side = false) :
    Enters r s side peer now
      { r with
        sessions := r.activeSessions now
        rooms := Function.update r.rooms i (some (room.join side peer)) } i

variable {lib}

/-- **Refused or entered**; to enter, nobody may be kept out. -/
theorem Relay.attach_cases (lib : GrantLib) (r : Relay) (s : Session) (side : Side) (peer : Nat)
    (now : Int) :
    ((r.attach lib s side peer now).2 = none ∧
      ((r.attach lib s side peer now).1 = r ∨
        (r.attach lib s side peer now).1 = { r with sessions := r.activeSessions now })) ∨
    (∃ i, (r.attach lib s side peer now).2 = some i ∧ r.Admits s.grant.sessionID now ∧
      r.Enters lib s side peer now (r.attach lib s side peer now).1 i) := by
  unfold attach
  dsimp only
  split
  · exact Or.inl ⟨rfl, Or.inl rfl⟩
  next hadmits =>
  have hopen : r.Admits s.grant.sessionID now := by
    rw [not_or, not_lt, not_lt] at hadmits
    refine ⟨hadmits.1, fun till htill => ?_⟩
    have hlate := hadmits.2
    rw [htill] at hlate
    exact hlate
  split
  · next hnone =>
    split
    · exact Or.inl ⟨rfl, Or.inr rfl⟩
    · exact Or.inr ⟨_, rfl, hopen, .opened hnone⟩
  · next i htable =>
    split
    · exact Or.inl ⟨rfl, Or.inr rfl⟩
    next room hroom =>
    split
    · exact Or.inl ⟨rfl, Or.inr rfl⟩
    · next hfree =>
      simp only [not_or, ne_eq, not_not, Bool.not_eq_true] at hfree
      exact Or.inr ⟨i, rfl, hopen, .joined i room htable hroom hfree.1 hfree.2.2⟩

theorem Relay.get_activeSessions {r : Relay} {now : Int} {id : GoString} {i : Nat} :
    (r.activeSessions now)[id]? = some i ↔ r.sessions[id]? = some i ∧
      r.roomActive now i = true := by
  unfold activeSessions
  rw [Std.ExtTreeMap.getElem?_filter', Option.filter_eq_some_iff]

end Bpc.P2P
