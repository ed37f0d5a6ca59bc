/-
  RUNS OF THE RELAY — a revocation holds for the rest of the lease.

  1. **Invariant** (`Machine.Inv`) — a room that is not in the table has expired, a handler is in
     the room of its own ticket, and an entered side stays taken.
  2. **A revocation** (`Machine.Revoked`) — for a minute a tombstone keeps everybody out, and every
     room of the session is marked or has expired.
  3. **Result** — `relay_revocation_holds`.  `Move` says once what an event can do.
-/
import Bpc.P2P.Relay

namespace Bpc.P2P

open Routed (GoString)

/-! ## Leases -/

/-- What `VerifyGrant` is told by a relay. -/
structure Pin where
  issuer : GoString
  cluster : GoString
  revision : Nat

/-- What tickets are verified against. -/
def Relay.pin (r : Relay) : Pin := ⟨r.issuer, r.cluster, r.revision⟩

variable (lib : GrantLib) (pin : Pin)

/-- The session comes from a verified ticket. -/
def Verified (s : Session) (clock : Int) : Prop :=
  ∃ t ≤ clock, verifyGrant lib s.ticket pin.issuer pin.cluster pin.revision t = .ok s

/-- The digest tells the tickets of the handlers from those of the rooms. -/
def Machine.Distinguishes (m : Machine) : Prop :=
  ∀ n hd i room, m.handlers n = some hd → m.relay.rooms i = some room →
    lib.sha256 room.session.ticket = lib.sha256 hd.session.ticket →
      room.session.ticket = hd.session.ticket

/-- The clock does not go back, and tickets have different digests. -/
def Machine.Regular (m : Machine) (event : RelayEvent × Int) : Prop :=
  m.Later event ∧ m.Distinguishes lib

/-- The lease has run out. -/
def Expired (s : Session) (clock : Int) : Prop := s.grant.expiresAt ≤ Time.unix clock

variable {lib pin}

variable {s : Session} {clock clock' : Int}

theorem Verified.mono (h : Verified lib pin s clock) (hle : clock ≤ clock') :
    Verified lib pin s clock' := by
  obtain ⟨t, ht, hv⟩ := h
  exact ⟨t, le_trans ht hle, hv⟩

theorem Expired.mono (h : Expired s clock) (hle : clock ≤ clock') : Expired s clock' :=
  le_trans h (Time.unix_mono hle)

variable {now : Int}

theorem Verified.active_or (h : Verified lib pin s clock) (hle : clock ≤ now) :
    s.active now = true ∨ Expired s now := by
  obtain ⟨t, ht, hv⟩ := h
  obtain ⟨-, hmanaged, -, hfresh, hdeadline⟩ := verifyGrant_ok hv
  rw [Session.active_iff hmanaged hdeadline]
  have hissued := hfresh.issued
  have hmono := Time.unix_mono (le_trans ht hle)
  unfold Expired
  omega

theorem Expired.inactive (h : Expired s now) : s.active now = false := by
  unfold Expired at h
  have hnot : ¬Time.unix now < s.grant.expiresAt := by omega
  simp [Session.active, hnot]

theorem Verified.lease (h : Verified lib pin s clock) :
    s.grant.expiresAt ≤ s.grant.issuedAt + maxLease := by
  obtain ⟨t, -, hv⟩ := h
  exact (verifyGrant_ok hv).2.2.2.1.lease

theorem verifyGrant_grant {ticket issuer cluster : GoString} {minRevision : Nat}
    (h : verifyGrant lib ticket issuer cluster minRevision now = .ok s) :
    ∃ payload signature, lib.decodeEnvelope ticket = .ok (payload, signature) ∧
      lib.decodeGrant payload = .ok s.grant := by
  unfold verifyGrant at h
  split at h
  · cases h
  split at h
  · cases h
  next payload signature henvelope =>
  split at h
  · cases h
  split at h
  · cases h
  next g hgrant =>
  split at h
  · cases h
  split at h
  · cases h
  · cases h
    exact ⟨payload, signature, henvelope, hgrant⟩

theorem Verified.grant_eq {s' : Session} (h : Verified lib pin s clock)
    (h' : Verified lib pin s' clock') (hticket : s.ticket = s'.ticket) : s.grant = s'.grant := by
  obtain ⟨t, -, hv⟩ := h
  obtain ⟨t', -, hv'⟩ := h'
  obtain ⟨payload, signature, henv, hgrant⟩ := verifyGrant_grant hv
  obtain ⟨payload', signature', henv', hgrant'⟩ := verifyGrant_grant hv'
  rw [hticket, henv'] at henv
  cases henv
  rw [hgrant'] at hgrant
  exact (Except.ok.inj hgrant).symm

/-! ## What an event can do -/

/-- The room of a stage. -/
def Stage.room : Stage → Option Nat
  | .attached i => some i
  | .holding i _ _ => some i
  | .sending i _ _ _ => some i
  | _ => none

variable (lib)

/-- The moves of a machine at the instant `now`. -/
inductive Machine.Move (m : Machine) (now : Int) : Machine → Prop
  | idle : Move m now m
  | revoke (id : GoString) : Move m now { m with relay := m.relay.revoke id now }
  | connect (h : Nat) (s : Session) (side : Side) (hnew : m.handlers h = none)
      (hverified : verifyGrant lib s.ticket m.relay.issuer m.relay.cluster m.relay.revision now =
        .ok s) :
    Move m now { m with handlers := Function.update m.handlers h (some ⟨s, side, .verified⟩) }
  | refuse (h : Nat) (hd : Handler) (hh : m.handlers h = some hd) (r : Relay)
      (hr : r = m.relay ∨ r = { m.relay with sessions := m.relay.activeSessions now }) :
    Move m now ({ m with relay := r }.goto h hd .gone)
  | enter (h : Nat) (hd : Handler) (hh : m.handlers h = some hd) (r : Relay) (i : Nat)
      (hadmits : m.relay.Admits hd.session.grant.sessionID now)
      (henters : m.relay.Enters lib hd.session hd.side h now r i) :
    Move m now { ({ m with relay := r } : Machine).goto h hd (.attached i) with
      attachments := ⟨hd.session, hd.side, i, now⟩ :: m.attachments }
  | read (h : Nat) (hd : Handler) (hh : m.handlers h = some hd) (i : Nat) (packet : GoString)
      (hstage : hd.stage = .attached i) : Move m now (m.goto h hd (.holding i packet m.events))
  | wait (h : Nat) (hd : Handler) (hh : m.handlers h = some hd) (i : Nat)
      (hstage : hd.stage.room = some i) : Move m now (m.goto h hd (.attached i))
  | quit (h : Nat) (hd : Handler) (hh : m.handlers h = some hd) :
    Move m now (m.goto h hd .leaving)
  | send (h : Nat) (hd : Handler) (hh : m.handlers h = some hd) (i : Nat) (packet : GoString)
      (read target : Nat) (room : Room) (hstage : hd.stage = .holding i packet read)
      (hroom : m.relay.rooms i = some room) (hrevoked : room.revoked = false)
      (hactive : room.session.active now = true) :
    Move m now (m.goto h hd (.sending i packet read target))
  | forward (h : Nat) (hd : Handler) (hh : m.handlers h = some hd) (i : Nat) (packet : GoString)
      (read target : Nat) (hstage : hd.stage = .sending i packet read target) :
    Move m now { m.goto h hd (.attached i) with
      forwarded := ⟨h, hd.session, packet, read, target⟩ :: m.forwarded }
  | leave (h : Nat) (hd : Handler) (hh : m.handlers h = some hd) :
    Move m now ({ m with relay := m.relay.revoke hd.session.grant.sessionID now }.goto h hd .gone)

variable {lib}

/-- **Every event is a move.** -/
theorem Machine.effect_move (m : Machine) (event : RelayEvent) (now : Int) :
    m.Move lib now (m.effect lib event now) := by
  cases event with
  | revoke id => exact .revoke id
  | connect h ticket side challenge binding proof =>
    show m.Move lib now (m.connect lib h ticket side challenge binding proof now)
    unfold connect
    split
    · exact .idle
    next hnew =>
    split
    · exact .idle
    next s hs =>
    dsimp only
    split
    · have hticket := (verifyGrant_ok hs).1
      exact .connect h s side hnew (by rw [hticket]; exact hs)
    · exact .idle
  | attach h =>
    show m.Move lib now (m.attach lib h now)
    unfold attach
    split
    · next s side hh =>
      dsimp only
      rcases m.relay.attach_cases lib s side h now with
        ⟨hnone, hr⟩ | ⟨i, hsome, hadmits, henters⟩
      · rw [hnone]
        exact .refuse h ⟨s, side, .verified⟩ hh _ hr
      · rw [hsome]
        exact .enter h ⟨s, side, .verified⟩ hh _ i hadmits henters
    · exact .idle
  | read h packet =>
    unfold effect
    dsimp only
    split
    · next s side i hh =>
      split
      · exact .read h ⟨s, side, .attached i⟩ hh i packet rfl
      · exact .quit h _ hh
    · exact .idle
  | check h =>
    show m.Move lib now (m.check h now)
    unfold check
    split
    · next s side i packet read hh =>
      split
      · exact .quit h _ hh
      next room hroom =>
      split
      · exact .quit h _ hh
      next hvalid =>
      simp only [Bool.or_eq_true, Bool.not_eq_true', not_or, Bool.not_eq_true,
        Bool.not_eq_false] at hvalid
      split
      · split
        · exact .wait h _ hh i rfl
        · next target htarget =>
          exact .send h _ hh i packet read target room rfl hroom hvalid.1 hvalid.2
      · exact .wait h _ hh i rfl
    · exact .idle
  | forward h written =>
    show m.Move lib now (m.forward h written)
    unfold forward
    split
    · next s side i packet read target hh =>
      split
      · exact .forward h ⟨s, side, .sending i packet read target⟩ hh i packet read target rfl
      · exact .quit h _ hh
    · exact .idle
  | fail h =>
    unfold effect
    dsimp only
    split
    · next hh => exact .quit h _ hh
    · exact .idle
  | leave h =>
    unfold effect
    dsimp only
    split
    · next s side hh => exact .leave h ⟨s, side, .leaving⟩ hh
    · exact .idle

/-! ## Rooms and their table -/

variable (lib pin)

/-- A room that is not in the table has expired. -/
structure Relay.Inv (r : Relay) (clock : Int) : Prop where
  pinned : r.pin = pin
  below : ∀ i room, r.rooms i = some room → i < r.fresh
  room : ∀ i room, r.rooms i = some room → Verified lib pin room.session clock ∧
    room.hash = lib.sha256 room.session.ticket
  table : ∀ id i, r.sessions[(id : GoString)]? = some i →
    ∃ room, r.rooms i = some room ∧ room.session.grant.sessionID = id
  current : ∀ i room, r.rooms i = some room →
    r.sessions[room.session.grant.sessionID]? = some i ∨ Expired room.session clock

variable {lib pin}

/-- Rooms stay; a mark or a taken side is not given back. -/
def Relay.Grows (r r' : Relay) : Prop :=
  ∀ i room, r.rooms i = some room → ∃ room', r'.rooms i = some room' ∧
    room'.session = room.session ∧ (room.revoked = true → room'.revoked = true) ∧
    ∀ side, room.joined side = true → room'.joined side = true

theorem Relay.Grows.refl (r : Relay) : r.Grows r :=
  fun _ room hroom => ⟨room, hroom, rfl, id, fun _ => id⟩

variable {r : Relay}

theorem Relay.Inv.mono (h : r.Inv lib pin clock) (hle : clock ≤ clock') : r.Inv lib pin clock' where
  pinned := h.pinned
  below := h.below
  room i room hroom := ⟨(h.room i room hroom).1.mono hle, (h.room i room hroom).2⟩
  table := h.table
  current i room hroom := (h.current i room hroom).imp id (·.mono hle)

theorem Relay.revoke_rooms (r : Relay) (id : GoString) (now : Int) (i : Nat) :
    (r.revoke id now).rooms i = (r.rooms i).map fun room =>
      if r.sessions[id]? = some i then { room with revoked := true } else room := by
  have hbury : (r.bury id now).rooms = r.rooms ∧ (r.bury id now).sessions = r.sessions := by
    unfold bury
    dsimp only
    split <;> exact ⟨rfl, rfl⟩
  unfold revoke markRevoked
  rw [hbury.1, hbury.2]
  cases htable : r.sessions[id]? with
  | none =>
    dsimp only
    rw [hbury.1]
    simp
  | some j =>
    dsimp only
    rw [Function.update_apply]
    by_cases hij : i = j
    · subst hij
      simp
    · have hji : ¬j = i := fun h => hij h.symm
      simp [hij, hji]

theorem Relay.revoke_rest (r : Relay) (id : GoString) (now : Int) :
    (r.revoke id now).pin = r.pin ∧ (r.revoke id now).fresh = r.fresh ∧
      (r.revoke id now).sessions = r.sessions ∧
      (r.revoke id now).denied = (r.bury id now).denied ∧
      (r.revoke id now).denyUntil = (r.bury id now).denyUntil := by
  have hbury : (r.bury id now).pin = r.pin ∧ (r.bury id now).fresh = r.fresh ∧
      (r.bury id now).sessions = r.sessions := by
    unfold bury
    dsimp only
    split <;> exact ⟨rfl, rfl, rfl⟩
  unfold revoke markRevoked
  split
  · exact ⟨hbury.1, hbury.2.1, hbury.2.2, rfl, rfl⟩
  · exact ⟨hbury.1, hbury.2.1, hbury.2.2, rfl, rfl⟩

variable {id : GoString} {i : Nat}

theorem Relay.of_revoke_rooms {room' : Room} (h : (r.revoke id now).rooms i = some room') :
    ∃ room, r.rooms i = some room ∧ room'.session = room.session ∧ room'.hash = room.hash ∧
      (room.revoked = true → room'.revoked = true) ∧
      (r.sessions[id]? = some i → room'.revoked = true) := by
  rw [revoke_rooms] at h
  obtain ⟨room, hroom, rfl⟩ := Option.map_eq_some_iff.mp h
  refine ⟨room, hroom, ?_⟩
  split
  · exact ⟨rfl, rfl, fun _ => rfl, fun _ => rfl⟩
  · next hnot => exact ⟨rfl, rfl, fun h => h, fun h => absurd h hnot⟩

theorem Relay.revoke_grows (r : Relay) (id : GoString) (now : Int) :
    r.Grows (r.revoke id now) := by
  intro i room hroom
  rw [revoke_rooms, hroom]
  refine ⟨_, rfl, ?_⟩
  split
  · exact ⟨rfl, fun _ => rfl, fun _ h => h⟩
  · exact ⟨rfl, fun h => h, fun _ h => h⟩

theorem Relay.Inv.revoke (h : r.Inv lib pin clock) (id : GoString) (now : Int) :
    (r.revoke id now).Inv lib pin clock := by
  obtain ⟨hpin, hfresh, hsessions, -, -⟩ := r.revoke_rest id now
  refine ⟨hpin.trans h.pinned, fun i room hroom => ?_, fun i room hroom => ?_,
    fun key i hget => ?_, fun i room hroom => ?_⟩
  · obtain ⟨old, hold, -⟩ := of_revoke_rooms hroom
    rw [hfresh]
    exact h.below i old hold
  · obtain ⟨old, hold, hsession, hhash, -⟩ := of_revoke_rooms hroom
    rw [hsession, hhash]
    exact h.room i old hold
  · rw [hsessions] at hget
    obtain ⟨room, hroom, hid⟩ := h.table key i hget
    obtain ⟨room', hroom', hsession, -⟩ := r.revoke_grows id now i room hroom
    exact ⟨room', hroom', by rw [hsession, hid]⟩
  · obtain ⟨old, hold, hsession, -⟩ := of_revoke_rooms hroom
    rw [hsession, hsessions]
    exact h.current i old hold

theorem Relay.Inv.dropped (h : r.Inv lib pin clock) (hle : clock ≤ now) {room : Room}
    (hroom : r.rooms i = some room) :
    (r.activeSessions now)[room.session.grant.sessionID]? = some i ∨ Expired room.session now := by
  rcases h.current i room hroom with htable | hexpired
  · rcases (h.room i room hroom).1.active_or hle with hactive | hexpired
    · refine Or.inl (Relay.get_activeSessions.mpr ⟨htable, ?_⟩)
      rw [Relay.roomActive, hroom]
      exact hactive
    · exact Or.inr hexpired
  · exact Or.inr (hexpired.mono hle)

theorem Relay.Inv.sweep (h : r.Inv lib pin clock) (hle : clock ≤ now) :
    ({ r with sessions := r.activeSessions now } : Relay).Inv lib pin now where
  pinned := h.pinned
  below := h.below
  room := (h.mono hle).room
  table id i hget := h.table id i (Relay.get_activeSessions.mp hget).1
  current _ _ hroom := h.dropped hle hroom

variable {r' : Relay}

/-- **Whoever enters is in the room of its own ticket.** -/
theorem Relay.Inv.enters {side : Side} {peer : Nat} (h : r.Inv lib pin clock) (hle : clock ≤ now)
    (hs : Verified lib pin s now) (hdigest : ∀ i room, r.rooms i = some room →
      lib.sha256 room.session.ticket = lib.sha256 s.ticket → room.session.ticket = s.ticket)
    (henters : r.Enters lib s side peer now r' i) :
    r'.Inv lib pin now ∧ r.Grows r' ∧
      ∃ room, r'.rooms i = some room ∧ room.session.ticket = s.ticket ∧
        room.joined side = true := by
  cases henters with
  | opened hfree =>
    have hother : ∀ j room, r.rooms j = some room → j ≠ r.fresh := by
      intro j room hroom hj
      have := h.below j room hroom
      omega
    have hold : ∀ j room, r.rooms j = some room →
        (Function.update r.rooms r.fresh (some ((Room.empty s (lib.sha256 s.ticket)).join side
          peer))) j = some room := by
      intro j room hroom
      rw [Function.update_of_ne (hother j room hroom)]
      exact hroom
    refine ⟨⟨h.pinned, ?_, ?_, ?_, ?_⟩, ?_, _, Function.update_self .., rfl,
      Function.update_self ..⟩
    · intro j room hroom
      have hroom' : (Function.update r.rooms r.fresh _) j = some room := hroom
      rw [Function.update_apply] at hroom'
      show j < r.fresh + 1
      split at hroom'
      · omega
      · have := h.below j room hroom'
        omega
    · intro j room hroom
      have hroom' : (Function.update r.rooms r.fresh _) j = some room := hroom
      rw [Function.update_apply] at hroom'
      split at hroom'
      · cases hroom'
        exact ⟨hs, rfl⟩
      · exact (h.mono hle).room j room hroom'
    · intro id j hget
      have hget' : ((r.activeSessions now).insert s.grant.sessionID r.fresh)[id]? = some j := hget
      rw [SortedMap.get_insert] at hget'
      split at hget'
      · next hid =>
        cases hget'
        exact ⟨_, Function.update_self .., hid⟩
      · obtain ⟨room, hroom, hid⟩ := h.table id j (Relay.get_activeSessions.mp hget').1
        exact ⟨room, hold j room hroom, hid⟩
    · intro j room hroom
      have hroom' : (Function.update r.rooms r.fresh _) j = some room := hroom
      rw [Function.update_apply] at hroom'
      show ((r.activeSessions now).insert s.grant.sessionID r.fresh)[_]? = some j ∨ _
      rw [SortedMap.get_insert]
      split at hroom'
      · next hj =>
        cases hroom'
        exact Or.inl ((if_pos rfl).trans (by rw [hj]))
      · -- an older room of the same id is out of the table, so it has expired
        rcases h.dropped hle hroom' with htable | hexpired
        · refine Or.inl ?_
          rw [if_neg]
          · exact htable
          · intro hid
            rw [← hid, hfree] at htable
            cases htable
        · exact Or.inr hexpired
    · intro j room hroom
      exact ⟨room, hold j room hroom, rfl, id, fun _ => id⟩
  | joined i room htable hroom hhash hfree =>
    have hback : ∀ j room', (Function.update r.rooms i (some (room.join side peer))) j =
        some room' → ∃ old, r.rooms j = some old ∧ room'.session = old.session ∧
          room'.hash = old.hash := by
      intro j room' hroom'
      rw [Function.update_apply] at hroom'
      split at hroom'
      · next hj =>
        cases hroom'
        exact ⟨room, by rw [hj]; exact hroom, rfl, rfl⟩
      · exact ⟨room', hroom', rfl, rfl⟩
    have hgrows : r.Grows { r with
        sessions := r.activeSessions now
        rooms := Function.update r.rooms i (some (room.join side peer)) } := by
      intro j old hold
      show ∃ room', Function.update r.rooms i (some (room.join side peer)) j = some room' ∧ _
      rw [Function.update_apply]
      split
      · next hj =>
        subst hj
        obtain rfl : old = room := Option.some.inj (hold.symm.trans hroom)
        refine ⟨_, rfl, rfl, id, fun sd hsd => ?_⟩
        show Function.update old.joined side true sd = true
        rw [Function.update_apply]
        split
        · rfl
        · exact hsd
      · exact ⟨old, hold, rfl, id, fun _ => id⟩
    have hsweep := h.sweep hle
    refine ⟨⟨h.pinned, ?_, ?_, ?_, ?_⟩, hgrows, _, Function.update_self .., ?_,
      Function.update_self ..⟩
    · intro j room' hroom'
      obtain ⟨old, hold, -⟩ := hback j room' hroom'
      exact h.below j old hold
    · intro j room' hroom'
      obtain ⟨old, hold, hsession, hh⟩ := hback j room' hroom'
      rw [hsession, hh]
      exact hsweep.room j old hold
    · intro id j hget
      obtain ⟨old, hold, hid⟩ := hsweep.table id j hget
      obtain ⟨room', hroom', hsession, -⟩ := hgrows j old hold
      exact ⟨room', hroom', by rw [hsession, hid]⟩
    · intro j room' hroom'
      obtain ⟨old, hold, hsession, -⟩ := hback j room' hroom'
      rw [hsession]
      exact hsweep.current j old hold
    · refine hdigest i room hroom ?_
      rw [← (h.room i room hroom).2]
      exact hhash

/-! ## Handlers and the log -/

/-- The room holds a session of the same ticket. -/
def Relay.Hosts (r : Relay) (s : Session) (i : Nat) : Prop :=
  ∃ room, r.rooms i = some room ∧ room.session.ticket = s.ticket

theorem Relay.Hosts.grows (h : r.Hosts s i) (hgrows : r.Grows r') : r'.Hosts s i := by
  obtain ⟨room, hroom, hticket⟩ := h
  obtain ⟨room', hroom', hsession, -⟩ := hgrows i room hroom
  exact ⟨room', hroom', by rw [hsession, hticket]⟩

/-- The number of the event at which the packet in hand was read. -/
def Stage.read : Stage → Option Nat
  | .holding _ _ n => some n
  | .sending _ _ n _ => some n
  | _ => none

variable (lib pin)

/-- A handler is verified, with a packet from before `bound`. -/
structure Handler.Ok (hd : Handler) (r : Relay) (clock : Int) (bound : Nat) : Prop where
  verified : Verified lib pin hd.session clock
  room : ∀ i, hd.stage.room = some i → r.Hosts hd.session i
  read : ∀ n, hd.stage.read = some n → n < bound

/-- An attachment is verified, and its side of its room stays taken. -/
structure Attachment.Ok (a : Attachment) (r : Relay) (clock : Int) : Prop where
  verified : Verified lib pin a.session clock
  taken : ∃ room, r.rooms a.room = some room ∧ room.session.ticket = a.session.ticket ∧
    room.joined a.side = true

/-- The later attachment comes when the earlier session is over. -/
def Attachment.After (later earlier : Attachment) : Prop :=
  later.session.grant.sessionID = earlier.session.grant.sessionID → later.side = earlier.side →
    earlier.session.active later.now = false

/-- The invariant. -/
structure Machine.Inv (m : Machine) (clock : Int) (bound : Nat) : Prop where
  relay : m.relay.Inv lib pin clock
  handlers : ∀ h hd, m.handlers h = some hd → hd.Ok lib pin m.relay clock bound
  forwarded : ∀ f ∈ m.forwarded, f.read < bound
  attachments : ∀ a ∈ m.attachments, a.Ok lib pin m.relay clock
  once : m.attachments.Pairwise Attachment.After

variable {lib pin}

variable {hd : Handler} {bound : Nat}

theorem Handler.Ok.grows {bound' : Nat} (h : hd.Ok lib pin r clock bound) (hgrows : r.Grows r')
    (hle : clock ≤ clock') (hbound : bound ≤ bound') : hd.Ok lib pin r' clock' bound' where
  verified := h.verified.mono hle
  room i hi := (h.room i hi).grows hgrows
  read n hn := lt_of_lt_of_le (h.read n hn) hbound

theorem Attachment.Ok.grows {a : Attachment} (h : a.Ok lib pin r clock) (hgrows : r.Grows r')
    (hle : clock ≤ clock') : a.Ok lib pin r' clock' where
  verified := h.verified.mono hle
  taken := by
    obtain ⟨room, hroom, hticket, hjoined⟩ := h.taken
    obtain ⟨room', hroom', hsession, -, hsides⟩ := hgrows a.room room hroom
    exact ⟨room', hroom', by rw [hsession, hticket], hsides _ hjoined⟩

variable {m : Machine}

theorem Machine.Inv.relay_step {bound' : Nat} (h : m.Inv lib pin clock bound)
    (hr : r.Inv lib pin clock') (hgrows : m.relay.Grows r) (hle : clock ≤ clock')
    (hbound : bound ≤ bound') : ({ m with relay := r } : Machine).Inv lib pin clock' bound' where
  relay := hr
  handlers n hd hhd := (h.handlers n hd hhd).grows hgrows hle hbound
  forwarded f hf := lt_of_lt_of_le (h.forwarded f hf) hbound
  attachments a ha := (h.attachments a ha).grows hgrows hle
  once := h.once

theorem Machine.Inv.handler (h : m.Inv lib pin clock bound) (n : Nat)
    (hhd : hd.Ok lib pin m.relay clock bound) :
    ({ m with handlers := Function.update m.handlers n (some hd) } : Machine).Inv lib pin clock
      bound where
  relay := h.relay
  handlers k old hk := by
    have hk' : Function.update m.handlers n (some hd) k = some old := hk
    rw [Function.update_apply] at hk'
    split at hk'
    · cases hk'
      exact hhd
    · exact h.handlers k old hk'
  forwarded := h.forwarded
  attachments := h.attachments
  once := h.once

theorem Handler.Ok.goto (h : hd.Ok lib pin r clock bound) {stage : Stage}
    (hroom : ∀ i, stage.room = some i → hd.stage.room = some i)
    (hread : ∀ n, stage.read = some n → hd.stage.read = some n ∨ n < bound) :
    ({ hd with stage } : Handler).Ok lib pin r clock bound where
  verified := h.verified
  room i hi := h.room i (hroom i hi)
  read n hn := by
    rcases hread n hn with hold | hlt
    · exact h.read n hold
    · exact hlt

/-- Whoever enters a side again finds the earlier session expired. -/
theorem Attachment.Ok.expired {a : Attachment} {side : Side} {peer : Nat}
    (ha : a.Ok lib pin r clock) (hr : r.Inv lib pin clock) (hle : clock ≤ now)
    (hid : s.grant.sessionID = a.session.grant.sessionID) (hside : side = a.side)
    (henters : r.Enters lib s side peer now r' i) : a.session.active now = false := by
  obtain ⟨room, hroom, hticket, hjoined⟩ := ha.taken
  have hgrant : room.session.grant = a.session.grant :=
    (hr.room a.room room hroom).1.grant_eq ha.verified hticket
  rcases hr.dropped hle hroom with htable | hexpired
  · rw [hgrant, ← hid] at htable
    cases henters with
    | opened hfree =>
      rw [hfree] at htable
      cases htable
    | joined i old hold hroom' hhash hfree =>
      obtain rfl : a.room = i := Option.some.inj (htable.symm.trans hold)
      obtain rfl : room = old := Option.some.inj (hroom.symm.trans hroom')
      rw [hside, hjoined] at hfree
      cases hfree
  · refine Expired.inactive ?_
    unfold Expired at hexpired ⊢
    rw [← hgrant]
    exact hexpired

/-- **A move keeps the invariant.** -/
theorem Machine.Inv.move {m' : Machine} (hdigest : m.Distinguishes lib)
    (h : m.Inv lib pin m.clock m.events) (hle : m.clock ≤ now) (hmove : m.Move lib now m') :
    m'.Inv lib pin now (m.events + 1) := by
  have hnow : m.Inv lib pin now (m.events + 1) :=
    h.relay_step (h.relay.mono hle) (Relay.Grows.refl _) hle (Nat.le_succ _)
  cases hmove with
  | idle => exact hnow
  | revoke id =>
    exact hnow.relay_step (hnow.relay.revoke id now) (m.relay.revoke_grows id now) (le_refl _)
      (le_refl _)
  | connect n s side hnew hverified =>
    refine hnow.handler n ⟨⟨now, le_refl _, ?_⟩, fun i hi => (by cases hi), fun k hk => by cases hk⟩
    have hpin := h.relay.pinned
    unfold Relay.pin at hpin
    rw [← hpin]
    exact hverified
  | refuse n hd hh r hr =>
    have hrelay : ({ m with relay := r } : Machine).Inv lib pin now (m.events + 1) := by
      rcases hr with rfl | rfl
      · exact hnow
      · exact hnow.relay_step (h.relay.sweep hle) (Relay.Grows.refl m.relay) (le_refl _)
          (le_refl _)
    exact hrelay.handler n ((hrelay.handlers n hd hh).goto (fun i hi => by cases hi)
      fun k hk => by cases hk)
  | enter n hd hh r i hadmits henters =>
    have hverified := (hnow.handlers n hd hh).verified
    obtain ⟨hr, hgrows, room, hroom, hticket, hjoined⟩ :=
      h.relay.enters hle hverified (fun i room hroom => hdigest n hd i room hh hroom) henters
    have hrelay := hnow.relay_step hr hgrows (le_refl _) (le_refl _)
    have hok : ({ hd with stage := .attached i } : Handler).Ok lib pin r now (m.events + 1) := by
      refine ⟨hverified, fun j hj => ?_, fun k hk => by cases hk⟩
      cases hj
      exact ⟨room, hroom, hticket⟩
    have hhandler := hrelay.handler n hok
    refine ⟨hhandler.relay, hhandler.handlers, hhandler.forwarded, ?_, ?_⟩
    · intro a ha
      rcases List.mem_cons.mp ha with rfl | hold
      · exact ⟨hverified, room, hroom, hticket, hjoined⟩
      · exact hhandler.attachments a hold
    · -- an earlier attachment of the same side: its room would still be there, and taken
      refine List.pairwise_cons.mpr ⟨fun a ha hid hside => ?_, hhandler.once⟩
      exact (h.attachments a ha).expired h.relay hle hid hside henters
  | read n hd hh i packet hstage =>
    refine hnow.handler n ((hnow.handlers n hd hh).goto ?_ ?_)
    · intro j hj
      rw [hstage]
      exact hj
    · intro k hk
      cases hk
      exact Or.inr (Nat.lt_succ_self _)
  | wait n hd hh i hstage =>
    refine hnow.handler n ((hnow.handlers n hd hh).goto ?_ fun k hk => by cases hk)
    intro j hj
    cases hj
    exact hstage
  | quit n hd hh =>
    exact hnow.handler n ((hnow.handlers n hd hh).goto (fun i hi => by cases hi)
      fun k hk => by cases hk)
  | send n hd hh i packet read target room hstage hroom hrevoked hactive =>
    refine hnow.handler n ((hnow.handlers n hd hh).goto ?_ ?_)
    · intro j hj
      rw [hstage]
      exact hj
    · intro k hk
      rw [hstage]
      exact Or.inl hk
  | forward n hd hh i packet read target hstage =>
    have hok := hnow.handlers n hd hh
    have hback : ({ hd with stage := .attached i } : Handler).Ok lib pin m.relay now
        (m.events + 1) := by
      refine hok.goto (fun j hj => ?_) fun k hk => by cases hk
      rw [hstage]
      exact hj
    have hhandler := hnow.handler n hback
    refine ⟨hhandler.relay, hhandler.handlers, ?_, hhandler.attachments, hhandler.once⟩
    intro f hf
    rcases List.mem_cons.mp hf with rfl | hold
    · exact hok.read read (by rw [hstage]; rfl)
    · exact hnow.forwarded f hold
  | leave n hd hh =>
    have hrelay := hnow.relay_step (hnow.relay.revoke hd.session.grant.sessionID now)
      (m.relay.revoke_grows _ now) (le_refl _) (le_refl _)
    exact hrelay.handler n ((hrelay.handlers n hd hh).goto (fun i hi => by cases hi)
      fun k hk => by cases hk)

/-! ## A revocation -/

/-- The revocation at the instant `t` is about this session. -/
def Affected (id : GoString) (t : Int) (s : Session) : Prop :=
  s.grant.sessionID = id ∧ s.grant.issuedAt ≤ Time.unix t

/-- A minute has passed, or a tombstone lasts until then. -/
def Relay.Buried (r : Relay) (id : GoString) (t clock : Int) : Prop :=
  t + maxLeaseDuration ≤ clock ∨ t + maxLeaseDuration ≤ r.denyUntil ∨
    ∃ till, r.denied[id]? = some till ∧ t + maxLeaseDuration ≤ till

theorem unix_add_lease (t : Int) : Time.unix (t + maxLeaseDuration) = Time.unix t + maxLease := by
  have hsplit : t + maxLeaseDuration - Time.epoch = t - Time.epoch + maxLease * Time.second := by
    unfold maxLeaseDuration
    omega
  unfold Time.unix
  rw [hsplit, Int.add_mul_ediv_right _ _ (by decide)]

variable {t : Int}

/-- **A minute outlives every lease issued by then.** -/
theorem Verified.expired_of_late (h : Verified lib pin s clock)
    (hissued : s.grant.issuedAt ≤ Time.unix t) (hlate : t + maxLeaseDuration ≤ now) :
    Expired s now := by
  have hlease := h.lease
  have hmono := Time.unix_mono hlate
  rw [unix_add_lease] at hmono
  unfold Expired
  omega

theorem Relay.Buried.admits (h : r.Buried id t clock) (hle : clock ≤ now)
    (hadmits : r.Admits id now) : t + maxLeaseDuration ≤ now := by
  rcases h with hpassed | hall | ⟨till, hget, htill⟩
  · omega
  · have := hadmits.1
    omega
  · have := hadmits.2 till hget
    omega

theorem Relay.revoke_buried (r : Relay) (id : GoString) (now : Int) :
    (r.revoke id now).Buried id now now := by
  obtain ⟨-, -, -, hdenied, hall⟩ := r.revoke_rest id now
  unfold Buried
  rw [hdenied, hall]
  unfold bury
  dsimp only
  split
  · exact Or.inr (Or.inr ⟨_, SortedMap.get_insert_self _ _ _, le_refl _⟩)
  · exact Or.inr (Or.inl (le_refl _))

theorem Relay.Buried.revoke (h : r.Buried id t clock) (hsince : t ≤ clock) (hle : clock ≤ now)
    (key : GoString) : (r.revoke key now).Buried id t now := by
  obtain ⟨-, -, -, hdenied, hall⟩ := r.revoke_rest key now
  unfold Buried
  rw [hdenied, hall]
  unfold bury
  dsimp only
  -- the entry survives the pruning, unless its time has come
  have hpruned : ∀ till, r.denied[id]? = some till → now < till →
      (r.denied.filter fun _ u => decide (now < u))[id]? = some till := by
    intro till hget hlt
    rw [Std.ExtTreeMap.getElem?_filter', hget]
    simp [hlt]
  rcases h with hpassed | hwindow | ⟨till, hget, htill⟩
  · exact Or.inl (le_trans hpassed hle)
  · split
    · exact Or.inr (Or.inl hwindow)
    · exact Or.inr (Or.inl (by dsimp only; omega))
  · by_cases hlt : now < till
    · split
      · refine Or.inr (Or.inr ?_)
        dsimp only
        rw [SortedMap.get_insert]
        split
        · exact ⟨_, rfl, by omega⟩
        · exact ⟨till, hpruned till hget hlt, htill⟩
      · exact Or.inr (Or.inr ⟨till, hpruned till hget hlt, htill⟩)
    · exact Or.inl (by omega)

/-- **A revocation**, at the instant `t`, as event number `c`. -/
structure Machine.Revoked (m : Machine) (id : GoString) (t : Int) (c : Nat) (clock : Int) :
    Prop where
  since : t ≤ clock
  buried : m.relay.Buried id t clock
  rooms : ∀ i room, m.relay.rooms i = some room → Affected id t room.session →
    room.revoked = true ∨ Expired room.session clock
  sending : ∀ h hd i packet n target, m.handlers h = some hd → Affected id t hd.session →
    hd.stage = .sending i packet n target → n ≤ c
  forwarded : ∀ f ∈ m.forwarded, Affected id t f.session → f.read ≤ c

variable {c : Nat}

theorem Machine.Revoked.relay_step (h : m.Revoked id t c clock) (hle : clock ≤ clock')
    (hburied : r.Buried id t clock')
    (hrooms : ∀ i room', r.rooms i = some room' → Affected id t room'.session →
      (∃ room, m.relay.rooms i = some room ∧ room'.session = room.session ∧
        (room.revoked = true → room'.revoked = true)) ∨ Expired room'.session clock') :
    ({ m with relay := r } : Machine).Revoked id t c clock' where
  since := le_trans h.since hle
  buried := hburied
  rooms i room' hroom' haff := by
    rcases hrooms i room' hroom' haff with ⟨room, hroom, hsession, hmark⟩ | hexpired
    · rw [hsession] at haff ⊢
      exact (h.rooms i room hroom haff).imp hmark (·.mono hle)
    · exact Or.inr hexpired
  sending := h.sending
  forwarded := h.forwarded

theorem Machine.Revoked.handler (h : m.Revoked id t c clock) (n : Nat)
    (hsend : ∀ i packet k target, Affected id t hd.session →
      hd.stage = .sending i packet k target → k ≤ c) :
    ({ m with handlers := Function.update m.handlers n (some hd) } : Machine).Revoked id t c
      clock where
  since := h.since
  buried := h.buried
  rooms := h.rooms
  sending k old i packet j target hk haff hstage := by
    have hk' : Function.update m.handlers n (some hd) k = some old := hk
    rw [Function.update_apply] at hk'
    split at hk'
    · cases hk'
      exact hsend i packet j target haff hstage
    · exact h.sending k old i packet j target hk' haff hstage
  forwarded := h.forwarded

theorem Relay.Buried.mono (h : r.Buried id t clock) (hle : clock ≤ clock') : r.Buried id t clock' :=
  h.imp (fun hp => le_trans hp hle) fun hp => hp

/-- **A move keeps the revocation.** -/
theorem Machine.Revoked.move {m' : Machine} (h : m.Revoked id t c m.clock)
    (hinv : m.Inv lib pin m.clock m.events) (hle : m.clock ≤ now) (hmove : m.Move lib now m') :
    m'.Revoked id t c now := by
  have hnow : m.Revoked id t c now :=
    h.relay_step hle (h.buried.mono hle) fun i room hroom _ => Or.inl ⟨room, hroom, rfl, fun h => h⟩
  have hrevoke : ∀ key,
      ({ m with relay := m.relay.revoke key now } : Machine).Revoked id t c now := by
    intro key
    refine h.relay_step hle (h.buried.revoke h.since hle key) fun i room hroom _ => ?_
    obtain ⟨old, hold, hsession, -, hmark, -⟩ := Relay.of_revoke_rooms hroom
    exact Or.inl ⟨old, hold, hsession, hmark⟩
  cases hmove with
  | idle => exact hnow
  | revoke key => exact hrevoke key
  | connect n s side hnew hverified =>
    exact hnow.handler n fun _ _ _ _ _ hstage => by cases hstage
  | refuse n hd hh r hr =>
    have hrelay : ({ m with relay := r } : Machine).Revoked id t c now := by
      rcases hr with rfl | rfl
      · exact hnow
      · exact h.relay_step hle (h.buried.mono hle) fun i room hroom _ =>
          Or.inl ⟨room, hroom, rfl, fun h => h⟩
    exact hrelay.handler n fun _ _ _ _ _ hstage => by cases hstage
  | enter n hd hh r i hadmits henters =>
    have hrelay : ({ m with relay := r } : Machine).Revoked id t c now := by
      cases henters with
      | opened hfree =>
        refine h.relay_step hle (h.buried.mono hle) fun j room hroom haff => ?_
        have hroom' : Function.update m.relay.rooms m.relay.fresh _ j = some room := hroom
        rw [Function.update_apply] at hroom'
        split at hroom'
        · -- a new room of the revoked session: the minute has passed, so it has expired
          cases hroom'
          have haff' : Affected id t hd.session := haff
          have hlate := h.buried.admits hle (haff'.1 ▸ hadmits)
          exact Or.inr ((hinv.handlers n hd hh).verified.expired_of_late haff'.2 hlate)
        · exact Or.inl ⟨room, hroom', rfl, fun h => h⟩
      | joined i old htable hold hhash hfree =>
        refine h.relay_step hle (h.buried.mono hle) fun j room hroom _ => ?_
        have hroom' : Function.update m.relay.rooms i _ j = some room := hroom
        rw [Function.update_apply] at hroom'
        split at hroom'
        · next hj =>
          cases hroom'
          exact Or.inl ⟨old, by rw [hj]; exact hold, rfl, fun h => h⟩
        · exact Or.inl ⟨room, hroom', rfl, fun h => h⟩
    have hset := hrelay.handler n (fun _ _ _ _ _ hstage => (by cases hstage) :
      ∀ j packet k target, Affected id t ({ hd with stage := .attached i } : Handler).session →
        ({ hd with stage := .attached i } : Handler).stage = .sending j packet k target → k ≤ c)
    exact ⟨hset.since, hset.buried, hset.rooms, hset.sending, hset.forwarded⟩
  | read n hd hh i packet hstage => exact hnow.handler n fun _ _ _ _ _ hstage => by cases hstage
  | wait n hd hh i hstage => exact hnow.handler n fun _ _ _ _ _ hstage => by cases hstage
  | quit n hd hh => exact hnow.handler n fun _ _ _ _ _ hstage => by cases hstage
  | send n hd hh i packet read target room hstage hroom hrevoked hactive =>
    refine hnow.handler n fun _ _ _ _ haff _ => ?_
    -- the room is of the handler's ticket, hence marked or expired: it cannot have been valid
    have hok := hinv.handlers n hd hh
    obtain ⟨own, hown, hticket⟩ := hok.room i (by rw [hstage]; rfl)
    obtain rfl : room = own := Option.some.inj (hroom.symm.trans hown)
    have hgrant := (hinv.relay.room i room hroom).1.grant_eq hok.verified hticket
    have haff' : Affected id t room.session := by
      unfold Affected at haff ⊢
      rw [hgrant]
      exact haff
    rcases hnow.rooms i room hroom haff' with hmarked | hexpired
    · rw [hrevoked] at hmarked
      cases hmarked
    · rw [hexpired.inactive] at hactive
      cases hactive
  | forward n hd hh i packet read target hstage =>
    have hset := hnow.handler n (fun _ _ _ _ _ hs => (by cases hs) :
      ∀ j packet k target, Affected id t ({ hd with stage := .attached i } : Handler).session →
        ({ hd with stage := .attached i } : Handler).stage = .sending j packet k target → k ≤ c)
    refine ⟨hset.since, hset.buried, hset.rooms, hset.sending, fun f hf haff => ?_⟩
    rcases List.mem_cons.mp hf with rfl | hold
    · exact h.sending n hd i packet read target hh haff hstage
    · exact h.forwarded f hold haff
  | leave n hd hh => exact (hrevoke _).handler n fun _ _ _ _ _ hstage => by cases hstage

/-! ## Whole runs -/

/-- A call of `Revoke`, or a handler that leaves. -/
def Machine.Revokes (m : Machine) (event : RelayEvent) (id : GoString) : Prop :=
  event = .revoke id ∨ ∃ h hd, event = .leave h ∧ m.handlers h = some hd ∧
    hd.stage = .leaving ∧ hd.session.grant.sessionID = id

/-- A run. -/
def Machine.run (lib : GrantLib) (m : Machine) (events : List (RelayEvent × Int)) : Machine :=
  events.foldl (step lib) m

theorem Machine.Inv.revokes (hinv : m.Inv lib pin m.clock m.events) (hle : m.clock ≤ now)
    {event : RelayEvent} (hrev : m.Revokes event id) :
    (m.effect lib event now).Revoked id now m.events now := by
  have hrelay : ({ m with relay := m.relay.revoke id now } : Machine).Revoked id now m.events
      now := by
    refine ⟨le_refl _, m.relay.revoke_buried id now, fun i room hroom haff => ?_, ?_, ?_⟩
    · obtain ⟨old, hold, hsession, -, -, hmark⟩ := Relay.of_revoke_rooms hroom
      rw [hsession] at haff ⊢
      rcases hinv.relay.current i old hold with htable | hexpired
      · rw [haff.1] at htable
        exact Or.inl (hmark htable)
      · exact Or.inr (hexpired.mono hle)
    · intro h hd i packet n target hh _ hstage
      exact le_of_lt ((hinv.handlers h hd hh).read n (by rw [hstage]; rfl))
    · intro f hf _
      exact le_of_lt (hinv.forwarded f hf)
  rcases hrev with rfl | ⟨h, ⟨s, side, stage⟩, rfl, hh, hstage, hid⟩
  · exact hrelay
  · have hstage' : stage = .leaving := hstage
    have hid' : s.grant.sessionID = id := hid
    subst hstage' hid'
    have heffect : m.effect lib (.leave h) now =
        ({ m with relay := m.relay.revoke s.grant.sessionID now } : Machine).goto h
          ⟨s, side, .leaving⟩ .gone := by
      unfold Machine.effect
      dsimp only
      rw [hh]
    rw [heffect]
    exact hrelay.handler h fun _ _ _ _ _ hs => by cases hs

theorem Machine.Inv.step (hinv : m.Inv lib pin m.clock m.events) {event : RelayEvent × Int}
    (hok : m.Regular lib event) :
    (m.step lib event).Inv lib pin (m.step lib event).clock (m.step lib event).events := by
  have hmove := hinv.move hok.2 hok.1 (m.effect_move event.1 event.2)
  exact ⟨hmove.relay, hmove.handlers, hmove.forwarded, hmove.attachments, hmove.once⟩

theorem Machine.Inv.start {issuer cluster : GoString} {revision : Nat}
    (hr : newRelay issuer cluster revision = .ok r) (clock : Int) :
    (Machine.start r clock).Inv lib ⟨issuer, cluster, revision⟩ clock 0 := by
  unfold newRelay at hr
  split at hr
  · cases hr
  cases hr
  exact
    { relay :=
        { pinned := rfl
          below := fun _ _ h => (by cases h)
          room := fun _ _ h => (by cases h)
          table := fun id i h => by
            have h' : (∅ : SortedMap GoString Nat)[id]? = some i := h
            rw [SortedMap.get_empty] at h'
            cases h'
          current := fun _ _ h => (by cases h) }
      handlers := fun _ _ h => (by cases h)
      forwarded := fun _ h => (by cases h)
      attachments := fun _ h => (by cases h)
      once := List.Pairwise.nil }

theorem Machine.run_events (m : Machine) :
    ∀ events : List (RelayEvent × Int), (m.run lib events).events = m.events + events.length
  | [] => rfl
  | event :: rest => by
    have ih := Machine.run_events (m.step lib event) rest
    show ((m.step lib event).run lib rest).events = _
    rw [ih, List.length_cons]
    show m.events + 1 + rest.length = _
    omega

/-- **A revocation holds for the rest of the lease.**  The event that revokes the session has
    number `pre.length`.  From then on a valid ticket issued by then does not get in, no packet
    read later is forwarded for such a session, and a side is entered again only when the session
    that entered it has run out. -/
theorem relay_revocation_holds (lib : GrantLib) {issuer cluster : GoString} {revision : Nat}
    {r : Relay} (hr : newRelay issuer cluster revision = .ok r) (clock : Int)
    (pre post : List (RelayEvent × Int)) (event : RelayEvent) (now : Int) (id : GoString)
    (hpre : Guarded (Machine.step lib) (Machine.Regular lib) (Machine.start r clock) pre)
    (hrevokes : ((Machine.start r clock).run lib pre).Revokes event id)
    (hnow : ((Machine.start r clock).run lib pre).Regular lib (event, now))
    (hpost : Guarded (Machine.step lib) (Machine.Regular lib)
      (((Machine.start r clock).run lib pre).step lib (event, now)) post) :
    let m := (((Machine.start r clock).run lib pre).step lib (event, now)).run lib post
    (∀ ticket s verified side peer later,
      verifyGrant lib ticket issuer cluster revision verified = .ok s →
      Affected id now s → m.clock ≤ later → s.active later = true →
        (m.relay.attach lib s side peer later).2 = none) ∧
    (∀ f ∈ m.forwarded, Affected id now f.session → f.read ≤ pre.length) ∧
    m.attachments.Pairwise Attachment.After := by
  intro m
  have hinv : ((Machine.start r clock).run lib pre).Inv lib ⟨issuer, cluster, revision⟩
      ((Machine.start r clock).run lib pre).clock
      ((Machine.start r clock).run lib pre).events :=
    Guarded.invariant
      (I := fun m : Machine => m.Inv lib ⟨issuer, cluster, revision⟩ m.clock m.events)
      (fun _ _ hm hok => hm.step hok) pre hpre (Machine.Inv.start hr clock)
  have hevents : ((Machine.start r clock).run lib pre).events = pre.length := by
    rw [Machine.run_events]
    exact Nat.zero_add _
  have hrevoked := hinv.revokes hnow.1 hrevokes
  rw [hevents] at hrevoked
  have hboth : m.Inv lib ⟨issuer, cluster, revision⟩ m.clock m.events ∧
      m.Revoked id now pre.length m.clock := by
    refine Guarded.invariant
      (I := fun m : Machine => m.Inv lib ⟨issuer, cluster, revision⟩ m.clock m.events ∧
        m.Revoked id now pre.length m.clock) ?_ post hpost ⟨hinv.step hnow, ?_⟩
    · rintro k e ⟨hk, hrev⟩ hok
      have hmove := hrev.move hk hok.1 (k.effect_move e.1 e.2)
      exact ⟨hk.step hok, hmove.since, hmove.buried, hmove.rooms, hmove.sending,
        hmove.forwarded⟩
    · exact ⟨hrevoked.since, hrevoked.buried, hrevoked.rooms, hrevoked.sending,
        hrevoked.forwarded⟩
  refine ⟨fun ticket s verified side peer later hs haff hle hactive => ?_, hboth.2.forwarded,
    hboth.1.once⟩
  rcases m.relay.attach_cases lib s side peer later with ⟨hnone, -⟩ | ⟨i, -, hadmits, -⟩
  · exact hnone
  · -- to get in, the minute must have passed, and then the ticket has expired
    have hlate := hboth.2.buried.admits hle (haff.1 ▸ hadmits)
    have hv : Verified lib ⟨issuer, cluster, revision⟩ s verified :=
      ⟨verified, le_refl _, by rw [(verifyGrant_ok hs).1]; exact hs⟩
    rw [(hv.expired_of_late haff.2 hlate).inactive] at hactive
    cases hactive

/-- A WireGuard message. -/
def cookie : GoString := [3, 0, 0, 0] ++ List.replicate 60 0

/-- The clock of the pilot, in seconds after its ticket was issued. -/
def pilotTime (seconds : Int) : Int := Time.ofUnix (1700000000 + seconds)

/-- Both sides enter, and one sends. -/
def pilotEvents : List (RelayEvent × Int) :=
  [(.connect 0 [1] .initiator [] [] [], pilotTime 1), (.attach 0, pilotTime 1),
   (.connect 1 [1] .host [] [] [], pilotTime 2), (.attach 1, pilotTime 2),
   (.read 0 cookie, pilotTime 3), (.check 0, pilotTime 3), (.forward 0 true, pilotTime 3)]

/-- A new relay. -/
def pilotRelay : Relay :=
  { issuer := List.replicate 32 1, cluster := [99], revision := 0, sessions := ∅, denied := ∅
    denyUntil := Time.zero, rooms := fun _ => none, fresh := 0 }

instance (m : Machine) (event : RelayEvent × Int) : Decidable (m.Later event) :=
  inferInstanceAs (Decidable (m.clock ≤ event.2))

/-- Of two packets the one read before the revocation was forwarded, and the valid ticket gets
    nobody in. -/
theorem relay_revocation_holds_pilot :
    let m := (((Machine.start pilotRelay 0).run pilotGrantLib pilotEvents).step pilotGrantLib
      (.revoke (List.replicate 32 48), pilotTime 4)).run pilotGrantLib
        [(.read 0 cookie, pilotTime 5), (.check 0, pilotTime 5), (.forward 0 true, pilotTime 5)]
    m.forwarded.length = 1 ∧ (∀ f ∈ m.forwarded, f.read ≤ 7) ∧
      pilotSession.active (pilotTime 10) = true ∧
      (m.relay.attach pilotGrantLib pilotSession .host 2 (pilotTime 10)).2 = none := by
  intro m
  -- the digest of the pilot is the ticket itself
  have hregular : ∀ (m : Machine) event, m.Later event → m.Regular pilotGrantLib event :=
    fun _ _ hle => ⟨hle, fun _ _ _ _ _ _ heq => heq⟩
  have hr : newRelay (List.replicate 32 1) [99] 0 = .ok pilotRelay := rfl
  have h := relay_revocation_holds pilotGrantLib hr 0 pilotEvents
    [(.read 0 cookie, pilotTime 5), (.check 0, pilotTime 5), (.forward 0 true, pilotTime 5)]
    (.revoke (List.replicate 32 48)) (pilotTime 4) (List.replicate 32 48)
    (Guarded.mono hregular (by decide +kernel)) (Or.inl rfl) (hregular _ _ (by decide +kernel))
    (Guarded.mono hregular (by decide +kernel))
  have hone : m.forwarded.length = 1 := by decide +kernel
  have hactive : pilotSession.active (pilotTime 10) = true := by decide +kernel
  refine ⟨hone, fun f hf => ?_, hactive, ?_⟩
  · have hall : ∀ f ∈ m.forwarded, f.session.grant.sessionID = List.replicate 32 48 ∧
        f.session.grant.issuedAt ≤ Time.unix (pilotTime 4) := by decide +kernel
    exact h.2.1 f hf (hall f hf)
  · exact h.1 [1] pilotSession (pilotTime 1) .host 2 (pilotTime 10) (by decide +kernel)
      (by unfold Affected; decide +kernel) (by decide +kernel) hactive

end Bpc.P2P
