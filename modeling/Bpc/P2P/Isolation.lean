/-
  ISOLATION — whose packets does the relay hand to whom?

  In EVERY order of events a packet goes from one side of a ticket to the other side of a ticket
  with the same digest, and has the form of a WireGuard message (`relay_isolates`).  The crux:
  rooms are never reused and handlers never change their ticket (`Keeps`).
-/
import Bpc.P2P.RelayRuns

namespace Bpc.P2P

open Routed (GoString)

variable (lib : GrantLib)

/-- The ticket and the side that a handler has proved. -/
def Machine.who (m : Machine) (h : Nat) : Option (Session × Side) :=
  (m.handlers h).map fun hd => (hd.session, hd.side)

/-- `target` is on the other side, of a ticket with the same digest. -/
def Machine.Opposite (m : Machine) (s : Session) (side : Side) (target : Nat) : Prop :=
  ∃ s', m.who target = some (s', side.other) ∧ lib.sha256 s'.ticket = lib.sha256 s.ticket

/-- A handler is in a room of its ticket, and sends to the other side. -/
structure Handler.Placed (m : Machine) (hd : Handler) : Prop where
  room : ∀ i, hd.stage.room = some i →
    ∃ room, m.relay.rooms i = some room ∧ room.hash = lib.sha256 hd.session.ticket
  sending : ∀ i packet n target, hd.stage = .sending i packet n target →
    wireGuardPacket packet = true ∧ m.Opposite lib hd.session hd.side target

/-- Who sits in a room has its ticket. -/
structure Room.Seated (m : Machine) (i : Nat) (room : Room) : Prop where
  below : i < m.relay.fresh
  peer : ∀ side peer, room.peers side = some peer →
    ∃ s, m.who peer = some (s, side) ∧ lib.sha256 s.ticket = room.hash

/-- The packet went to the other side. -/
def Forwarded.Isolated (m : Machine) (f : Forwarded) : Prop :=
  wireGuardPacket f.packet = true ∧
    ∃ side, m.who f.handler = some (f.session, side) ∧ m.Opposite lib f.session side f.target

/-- The invariant. -/
structure Machine.Isolated (m : Machine) : Prop where
  seated : ∀ i room, m.relay.rooms i = some room → room.Seated lib m i
  placed : ∀ h hd, m.handlers h = some hd → hd.Placed lib m
  forwarded : ∀ f ∈ m.forwarded, f.Isolated lib m

/-- Handlers keep their ticket and side, rooms their digest. -/
structure Machine.Keeps (m m' : Machine) : Prop where
  who : ∀ h x, m.who h = some x → m'.who h = some x
  rooms : ∀ i room, m.relay.rooms i = some room →
    ∃ room', m'.relay.rooms i = some room' ∧ room'.hash = room.hash
  fresh : m.relay.fresh ≤ m'.relay.fresh

variable {lib} {m m' : Machine} {now : Int} {n : Nat} {hd : Handler}

/-! ## What stays true -/

theorem Machine.Opposite.keeps {s : Session} {side : Side} {target : Nat} (hk : m.Keeps m')
    (h : m.Opposite lib s side target) : m'.Opposite lib s side target := by
  obtain ⟨s', hwho, hhash⟩ := h
  exact ⟨s', hk.who _ _ hwho, hhash⟩

theorem Handler.Placed.keeps (hk : m.Keeps m') (h : hd.Placed lib m) : hd.Placed lib m' where
  room i hi := by
    obtain ⟨room, hroom, hhash⟩ := h.room i hi
    obtain ⟨room', hroom', hsame⟩ := hk.rooms i room hroom
    exact ⟨room', hroom', hsame.trans hhash⟩
  sending i packet k target hstage :=
    ⟨(h.sending i packet k target hstage).1, (h.sending i packet k target hstage).2.keeps hk⟩

theorem Room.Seated.keeps {i : Nat} {room room' : Room} (hk : m.Keeps m') (h : room.Seated lib m i)
    (hhash : room'.hash = room.hash) (hpeers : room'.peers = room.peers) :
    room'.Seated lib m' i where
  below := lt_of_lt_of_le h.below hk.fresh
  peer side peer hpeer := by
    obtain ⟨s, hwho, hs⟩ := h.peer side peer (hpeers ▸ hpeer)
    exact ⟨s, hk.who _ _ hwho, hs.trans hhash.symm⟩

theorem Forwarded.Isolated.keeps {f : Forwarded} (hk : m.Keeps m') (h : f.Isolated lib m) :
    f.Isolated lib m' := by
  obtain ⟨hpacket, side, hwho, hopposite⟩ := h
  exact ⟨hpacket, side, hk.who _ _ hwho, hopposite.keeps hk⟩

theorem Machine.Isolated.step_of (h : m.Isolated lib) (hk : m.Keeps m')
    (hrooms : ∀ i room', m'.relay.rooms i = some room' → room'.Seated lib m' i ∨
      ∃ room, m.relay.rooms i = some room ∧ room'.hash = room.hash ∧ room'.peers = room.peers)
    (hhandlers : ∀ k hd, m'.handlers k = some hd → m.handlers k = some hd ∨ hd.Placed lib m')
    (hforwarded : ∀ f ∈ m'.forwarded, f ∈ m.forwarded ∨ f.Isolated lib m') :
    m'.Isolated lib where
  seated i room' hroom' := by
    rcases hrooms i room' hroom' with hseated | ⟨room, hroom, hhash, hpeers⟩
    · exact hseated
    · exact (h.seated i room hroom).keeps hk hhash hpeers
  placed k hd hhd := by
    rcases hhandlers k hd hhd with hold | hnew
    · exact (h.placed k hd hold).keeps hk
    · exact hnew
  forwarded f hf := by
    rcases hforwarded f hf with hold | hnew
    · exact (h.forwarded f hold).keeps hk
    · exact hnew

theorem Machine.Isolated.of_same (h : m.Isolated lib) (hrooms : m'.relay.rooms = m.relay.rooms)
    (hfresh : m'.relay.fresh = m.relay.fresh) (hhandlers : m'.handlers = m.handlers)
    (hforwarded : ∀ f ∈ m'.forwarded, f ∈ m.forwarded ∨ f.Isolated lib m) : m'.Isolated lib := by
  have hk : m.Keeps m' := by
    refine ⟨fun k x hx => ?_, fun i room hroom => ⟨room, hrooms ▸ hroom, rfl⟩, le_of_eq hfresh.symm⟩
    unfold who at hx ⊢
    rwa [hhandlers]
  exact h.step_of hk (fun i room hroom => Or.inr ⟨room, hrooms ▸ hroom, rfl, rfl⟩)
    (fun k hd hhd => Or.inl (hhandlers ▸ hhd)) fun f hf => (hforwarded f hf).imp id (·.keeps hk)

/-! ## The changes that events are made of -/

theorem Machine.who_goto (hh : m.handlers n = some hd) (stage : Stage) (k : Nat) :
    (m.goto n hd stage).who k = m.who k := by
  unfold who goto
  dsimp only
  rw [Function.update_apply]
  split
  · next hkn => rw [hkn, hh]; rfl
  · rfl

theorem Machine.Isolated.goto (h : m.Isolated lib) (hh : m.handlers n = some hd) {stage : Stage}
    (hplaced : ({ hd with stage } : Handler).Placed lib m) : (m.goto n hd stage).Isolated lib := by
  have hk : m.Keeps (m.goto n hd stage) :=
    ⟨fun k x hx => (who_goto hh stage k).trans hx, fun i room hroom => ⟨room, hroom, rfl⟩,
      le_refl _⟩
  refine h.step_of hk (fun i room hroom => Or.inr ⟨room, hroom, rfl, rfl⟩) (fun k hd' hhd' => ?_)
    fun f hf => Or.inl hf
  have hupdate : Function.update m.handlers n (some { hd with stage }) k = some hd' := hhd'
  rw [Function.update_apply] at hupdate
  split at hupdate
  · obtain rfl := Option.some.inj hupdate
    exact Or.inr (hplaced.keeps hk)
  · exact Or.inl hupdate

theorem Handler.Placed.stage (h : hd.Placed lib m) {stage : Stage}
    (hroom : ∀ i, stage.room = some i → hd.stage.room = some i)
    (hsending : ∀ i packet k target, stage ≠ .sending i packet k target) :
    ({ hd with stage } : Handler).Placed lib m where
  room i hi := h.room i (hroom i hi)
  sending i packet k target hstage := absurd hstage (hsending i packet k target)

theorem Machine.Isolated.revoke (h : m.Isolated lib) (id : GoString) (now : Int) :
    ({ m with relay := m.relay.revoke id now } : Machine).Isolated lib := by
  have hrooms := m.relay.revoke_rooms id now
  have hk : m.Keeps { m with relay := m.relay.revoke id now } := by
    refine ⟨fun _ _ hx => hx, fun i room hroom => ?_,
      le_of_eq (m.relay.revoke_rest id now).2.1.symm⟩
    show ∃ room', (m.relay.revoke id now).rooms i = some room' ∧ _
    rw [hrooms, hroom]
    refine ⟨_, rfl, ?_⟩
    split <;> rfl
  refine h.step_of hk (fun i room' hroom' => Or.inr ?_) (fun _ _ hhd => Or.inl hhd)
    fun _ hf => Or.inl hf
  change (m.relay.revoke id now).rooms i = some room' at hroom'
  rw [hrooms] at hroom'
  obtain ⟨room, hroom, rfl⟩ := Option.map_eq_some_iff.mp hroom'
  refine ⟨room, hroom, ?_⟩
  split <;> exact ⟨rfl, rfl⟩

theorem Machine.Isolated.enters {r : Relay} {i : Nat} (h : m.Isolated lib)
    (hh : m.handlers n = some hd) (henters : m.relay.Enters lib hd.session hd.side n now r i) :
    (({ m with relay := r } : Machine).goto n hd (.attached i)).Isolated lib := by
  have hwho : m.who n = some (hd.session, hd.side) := by
    unfold who
    rw [hh]
    rfl
  -- the room that is entered, as it was or empty, with one more seat taken
  obtain ⟨room, hold, hrest, hfresh, hhash, hseated⟩ : ∃ room : Room,
      r.rooms = Function.update m.relay.rooms i (some (room.join hd.side n)) ∧
      (∀ old, m.relay.rooms i = some old → old = room) ∧
      (i < r.fresh ∧ m.relay.fresh ≤ r.fresh) ∧ room.hash = lib.sha256 hd.session.ticket ∧
      ∀ side peer, room.peers side = some peer →
        ∃ s, m.who peer = some (s, side) ∧ lib.sha256 s.ticket = room.hash := by
    cases henters with
    | opened hfree =>
      refine ⟨_, rfl, fun old hold => ?_, ⟨Nat.lt_succ_self _, Nat.le_succ _⟩, rfl,
        fun _ _ hnone => (by cases hnone)⟩
      exact absurd (h.seated _ _ hold).below (lt_irrefl _)
    | joined i room htable hroom hhash hfree =>
      exact ⟨room, rfl, fun old hold => Option.some.inj (hold.symm.trans hroom),
        ⟨(h.seated i room hroom).below, le_refl _⟩, hhash, (h.seated i room hroom).peer⟩
  have hk : m.Keeps { m with relay := r } := by
    refine ⟨fun _ _ hx => hx, fun j old hj => ?_, hfresh.2⟩
    show ∃ room', r.rooms j = some room' ∧ _
    rw [hold, Function.update_apply]
    split
    · next hji => exact ⟨_, rfl, by rw [hrest old (hji ▸ hj)]; rfl⟩
    · exact ⟨old, hj, rfl⟩
  have hrelay : ({ m with relay := r } : Machine).Isolated lib := by
    refine h.step_of hk (fun j room' hroom' => ?_) (fun _ _ hhd => Or.inl hhd) fun _ hf => Or.inl hf
    change r.rooms j = some room' at hroom'
    rw [hold, Function.update_apply] at hroom'
    split at hroom'
    · next hji =>
      cases hroom'
      refine Or.inl ⟨hji ▸ hfresh.1, fun side peer hpeer => ?_⟩
      change Function.update room.peers hd.side (some n) side = some peer at hpeer
      rw [Function.update_apply] at hpeer
      split at hpeer
      · next hside =>
        cases hpeer
        exact ⟨hd.session, hside ▸ hwho, hhash.symm⟩
      · exact hseated side peer hpeer
    · exact Or.inr ⟨room', hroom', rfl, rfl⟩
  refine hrelay.goto hh ⟨fun j hj => ?_, fun _ _ _ _ hstage => (by cases hstage)⟩
  cases hj
  exact ⟨_, (congrFun hold i).trans (Function.update_self ..), hhash⟩

/-! ## Events and runs -/

theorem Machine.Isolated.check (h : m.Isolated lib) (n : Nat) (now : Int) :
    (m.check n now).Isolated lib := by
  unfold Machine.check
  split
  · next s side i packet read hh =>
    have hplaced := h.placed n _ hh
    have hback : ∀ stage : Stage, (stage = .leaving ∨ stage = .attached i) →
        (m.goto n ⟨s, side, .holding i packet read⟩ stage).Isolated lib := by
      rintro stage (rfl | rfl)
      · exact h.goto hh (hplaced.stage (fun _ hj => (by cases hj)) nofun)
      · exact h.goto hh (hplaced.stage (fun _ hj => hj) nofun)
    split
    · exact hback _ (Or.inl rfl)
    next room hroom =>
    split
    · exact hback _ (Or.inl rfl)
    split
    · next hpacket =>
      split
      · exact hback _ (Or.inr rfl)
      · next target htarget =>
        -- the room has the digest of this handler's ticket, and so has the peer of the other side
        obtain ⟨room', hroom', hhash⟩ := hplaced.room i rfl
        obtain rfl := Option.some.inj (hroom.symm.trans hroom')
        obtain ⟨s', hwho, hs'⟩ := (h.seated i room hroom).peer _ _ htarget
        refine h.goto hh ⟨fun j hj => hplaced.room j hj, fun _ _ _ _ hstage => ?_⟩
        cases hstage
        exact ⟨hpacket, s', hwho, hs'.trans hhash⟩
    · exact hback _ (Or.inr rfl)
  · exact h

theorem Machine.Isolated.forward (h : m.Isolated lib) (n : Nat) (written : Bool) :
    (m.forward n written).Isolated lib := by
  unfold Machine.forward
  split
  · next s side i packet read target hh =>
    have hplaced := h.placed n _ hh
    split
    · have hgoto : (m.goto n ⟨s, side, .sending i packet read target⟩ (.attached i)).Isolated lib :=
        h.goto hh (hplaced.stage (fun _ hj => hj) nofun)
      obtain ⟨hpacket, s', hwho, hs'⟩ := hplaced.sending i packet read target rfl
      refine hgoto.of_same rfl rfl rfl fun f hf => (List.mem_cons.mp hf).symm.imp id ?_
      rintro rfl
      refine ⟨hpacket, side, (who_goto hh _ n).trans ?_, s', (who_goto hh _ _).trans hwho, hs'⟩
      unfold who
      rw [hh]
      rfl
    · exact h.goto hh (hplaced.stage (fun _ hj => (by cases hj)) nofun)
  · exact h

theorem Machine.Isolated.effect (h : m.Isolated lib) (event : RelayEvent) (now : Int) :
    (m.effect lib event now).Isolated lib := by
  have hleave : ∀ {n hd}, m.handlers n = some hd → (m.goto n hd .leaving).Isolated lib :=
    fun hh => h.goto hh ((h.placed _ _ hh).stage (fun _ hj => (by cases hj)) nofun)
  cases event with
  | revoke id => exact h.revoke id now
  | connect n ticket side challenge binding proof =>
    show (m.connect lib n ticket side challenge binding proof now).Isolated lib
    unfold Machine.connect
    split
    · exact h
    next hnew =>
    split
    · exact h
    dsimp only
    split
    · next s _ _ =>
      refine h.step_of ⟨fun k x hx => ?_, fun i room hroom => ⟨room, hroom, rfl⟩, le_refl _⟩
        (fun i room hroom => Or.inr ⟨room, hroom, rfl, rfl⟩)
          (fun k hd' hhd' => ?_) fun _ hf => Or.inl hf
      · have hkn : k ≠ n := by
          rintro rfl
          unfold who at hx
          rw [hnew] at hx
          cases hx
        unfold who
        dsimp only
        rwa [Function.update_of_ne hkn]
      · change Function.update m.handlers n _ k = some hd' at hhd'
        rw [Function.update_apply] at hhd'
        split at hhd'
        · cases hhd'
          exact Or.inr ⟨fun _ hj => (by cases hj), nofun⟩
        · exact Or.inl hhd'
    · exact h
  | attach n =>
    show (m.attach lib n now).Isolated lib
    unfold Machine.attach
    split
    · next s side hh =>
      dsimp only
      rcases m.relay.attach_cases lib s side n now with ⟨hnone, hr⟩ | ⟨i, hsome, -, henters⟩
      · rw [hnone]
        have hrelay : ({ m with relay := (m.relay.attach lib s side n now).1 } : Machine).Isolated
            lib := by
          rcases hr with hr | hr <;> rw [hr]
          · exact h
          · exact h.of_same rfl rfl rfl fun _ hf => Or.inl hf
        exact hrelay.goto hh ((hrelay.placed n _ hh).stage (fun _ hj => (by cases hj)) nofun)
      · rw [hsome]
        exact (h.enters hh henters).of_same rfl rfl rfl fun _ hf => Or.inl hf
    · exact h
  | read n packet =>
    unfold Machine.effect
    dsimp only
    split
    · next s side i hh =>
      split
      · exact h.goto hh ((h.placed n _ hh).stage (fun _ hj => hj) nofun)
      · exact hleave hh
    · exact h
  | check n => exact h.check n now
  | forward n written => exact h.forward n written
  | fail n =>
    unfold Machine.effect
    dsimp only
    split
    · next hh => exact hleave hh
    · exact h
  | leave n =>
    unfold Machine.effect
    dsimp only
    split
    · next s side hh =>
      have hrevoked := h.revoke s.grant.sessionID now
      exact hrevoked.goto hh ((hrevoked.placed n _ hh).stage (fun _ hj => (by cases hj)) nofun)
    · exact h

/-- **The relay keeps tickets apart.**  At any times, every packet that was forwarded has the form
    of a WireGuard message and went from a handler of one side to a handler of the OTHER side, with
    tickets of one digest. -/
theorem relay_isolates (lib : GrantLib) {issuer cluster : GoString} {revision : Nat} {r : Relay}
    (hr : newRelay issuer cluster revision = .ok r) (clock : Int)
      (events : List (RelayEvent × Int)) :
    ∀ f ∈ ((Machine.start r clock).run lib events).forwarded,
      f.Isolated lib ((Machine.start r clock).run lib events) := by
  have hstart : (Machine.start r clock).Isolated lib := by
    unfold newRelay at hr
    split at hr
    · cases hr
    cases hr
    exact ⟨fun _ _ h => (by cases h), fun _ _ h => (by cases h), fun _ h => (by cases h)⟩
  have hrun : ((Machine.start r clock).run lib events).Isolated lib :=
    List.foldlRecOn (motive := fun m : Machine => m.Isolated lib) events _ hstart
      fun _ hm event _ => (hm.effect event.1 event.2).of_same rfl rfl rfl fun _ hf => Or.inl hf
  exact hrun.forwarded

/-- The packet goes from the initiator to the host. -/
theorem relay_isolates_pilot :
    let m := (Machine.start pilotRelay 0).run pilotGrantLib pilotEvents
    m.forwarded.map (fun f => (f.handler, f.target)) = [(0, 1)] ∧
      ∀ f ∈ m.forwarded, f.Isolated pilotGrantLib m :=
  ⟨by decide +kernel, relay_isolates pilotGrantLib
    (show newRelay (List.replicate 32 1) [99] 0 = .ok pilotRelay from rfl) 0 pilotEvents⟩

end Bpc.P2P
