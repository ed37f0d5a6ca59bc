/-
  RUNS OF THE SHARED ADAPTER — a reserved peer never falls back to the gateway.

  1. **Moves** — an event is one or more small moves, each with what was tested for it
     (`effect_moves`).
  2. **Invariant** (`Adapter.Inv`) — the table holds the attached devices, their queues what was
     dispatched.
  3. **Result** — a reserved key stays in the table (`Adapter.Sealed`), so every later test sees it
     (`reserved_peer_never_falls_back`).
-/
import Bpc.P2P.Mux
import Mathlib

namespace Bpc.P2P

open Routed (GoString)

/-! ## Packets and peers -/

/-- A packet to the peer. -/
def SentTo (p : Addr) (packet : GoString) : Prop := ∃ src, packetAddresses packet = some (src, p)

/-- A packet from the peer. -/
def SentFrom (p : Addr) (packet : GoString) : Prop := ∃ dst, packetAddresses packet = some (p, dst)

/-- The device was attached for the peer, and is not closed. -/
def MuxTUN.Attached (x : MuxTUN) (p : Addr) (d : Nat) : Prop :=
  ∃ dev, x.devices d = some dev ∧ dev.peer = p ∧ dev.detached = false

/-- The packet was dispatched to the device. -/
def Adapter.Received (m : Adapter) (packet : GoString) (d : Nat) : Prop :=
  ∃ r ∈ m.dispatched, r.packet = packet ∧ r.target = .peer d

/-- A `Reserve`, or the end of an `Attach`, for the peer. -/
def Adapter.Reserves (m : Adapter) (event : MuxEvent) (p : Addr) : Prop :=
  (event = .reserve p ∧ ∃ x, m.mux.reserve p = .ok x) ∨
  ∃ c started k x, event = .bind c ∧ m.calls c = some ⟨started, .attaching p k⟩ ∧
    m.mux.bind p k (m.policies k).session.grant (m.policies k).side = .ok x

/-! ## The table and the queues -/

/-- The attached devices, with what came to their queues. -/
structure MuxTUN.Inv (x : MuxTUN) (came : GoString → Nat → Prop) : Prop where
  table : ∀ p d, x.peers[p]? = some (some d) ↔ x.Attached p d
  below : ∀ d dev, x.devices d = some dev → d < x.fresh
  queues : ∀ d dev packet, x.devices d = some dev → packet ∈ dev.queue → came packet d

/-- No key leaves the table. -/
def MuxTUN.Keeps (x y : MuxTUN) : Prop := ∀ p : Addr, x.peers[p]? ≠ none → y.peers[p]? ≠ none

/-- A change of the table or the queues that keeps the rules. -/
structure MuxTUN.Change (x y : MuxTUN) : Prop where
  keeps : x.Keeps y
  inv : ∀ came, x.Inv came → y.Inv came

variable {x y : MuxTUN}

theorem MuxTUN.Keeps.insert (p : Addr) (v : Option Nat) (hy : y.peers = x.peers.insert p v) :
    x.Keeps y := by
  intro q hq
  rw [hy, SortedMap.get_insert]
  split
  · exact Option.some_ne_none _
  · exact hq

variable {p : Addr}

theorem MuxTUN.reserve_ok (h : x.reserve p = .ok y) :
    y.peers[p]? ≠ none ∧ (y = x ∨ x.peers[p]? = none ∧
      y = { x with peers := x.peers.insert p none }) := by
  unfold reserve at h
  split at h
  · cases h
  split at h
  · cases h
  split at h
  · next hsome =>
    cases h
    exact ⟨by rw [hsome]; exact Option.some_ne_none _, Or.inl rfl⟩
  · next hnone =>
    split at h
    · cases h
    cases h
    refine ⟨?_, Or.inr ⟨hnone, rfl⟩⟩
    rw [SortedMap.get_insert_self]
    exact Option.some_ne_none _

theorem MuxTUN.reserve_change (h : x.reserve p = .ok y) : x.Change y := by
  obtain ⟨-, rfl | ⟨hnone, rfl⟩⟩ := reserve_ok h
  · exact ⟨fun _ h => h, fun _ h => h⟩
  refine ⟨Keeps.insert p none rfl, fun came hx => ⟨fun q d => ?_, hx.below, hx.queues⟩⟩
  show (x.peers.insert p none)[q]? = some (some d) ↔ x.Attached q d
  rw [← hx.table, SortedMap.get_insert]
  split
  · next hq =>
    rw [← hq, hnone]
    exact ⟨fun h => (by cases h), fun h => (by cases h)⟩
  · rfl

theorem MuxTUN.bind_ok {k : Nat} {g : Grant} {side : Side} (h : x.bind p k g side = .ok y) :
    (∀ d, x.peers[p]? ≠ some (some d)) ∧
      y = { x with
        peers := x.peers.insert p (some x.fresh)
        devices := Function.update x.devices x.fresh (some ⟨p, [], false, k, false⟩)
        fresh := x.fresh + 1 } := by
  unfold bind at h
  split at h
  · cases h
  split at h
  · cases h
  next hfree =>
  split at h
  · cases h
  cases h
  refine ⟨fun d hd => hfree ?_, rfl⟩
  rw [hd]
  rfl

theorem MuxTUN.bind_change {k : Nat} {g : Grant} {side : Side} (h : x.bind p k g side = .ok y) :
    x.Change y := by
  obtain ⟨hfree, rfl⟩ := bind_ok h
  refine ⟨Keeps.insert p _ rfl, fun came hx => ⟨fun q d => ?_, fun d dev hd => ?_,
    fun d dev packet hd hmem => ?_⟩⟩
  · show (x.peers.insert p (some x.fresh))[q]? = some (some d) ↔ _
    unfold Attached
    dsimp only
    rw [SortedMap.get_insert, Function.update_apply]
    -- the fresh device is attached for `p` and for nobody else
    by_cases hd : d = x.fresh
    · subst hd
      rw [if_pos rfl]
      by_cases hq : p = q
      · rw [if_pos hq]
        exact ⟨fun _ => ⟨_, rfl, hq, rfl⟩, fun _ => rfl⟩
      · rw [if_neg hq]
        constructor
        · intro hq'
          obtain ⟨dev, hdev, -⟩ := (hx.table q x.fresh).mp hq'
          exact absurd (hx.below _ dev hdev) (Nat.lt_irrefl _)
        · rintro ⟨dev, hdev, hpeer, -⟩
          cases hdev
          exact absurd hpeer hq
    · rw [if_neg hd]
      by_cases hq : p = q
      · subst hq
        rw [if_pos rfl]
        constructor
        · intro heq
          cases heq
          exact absurd rfl hd
        · intro hatt
          exact absurd ((hx.table p d).mpr hatt) (hfree d)
      · rw [if_neg hq]
        exact hx.table q d
  · have hd' : Function.update x.devices x.fresh _ d = some dev := hd
    rw [Function.update_apply] at hd'
    show d < x.fresh + 1
    split at hd'
    · omega
    · have := hx.below d dev hd'
      omega
  · have hd' : Function.update x.devices x.fresh _ d = some dev := hd
    rw [Function.update_apply] at hd'
    split at hd'
    · cases hd'
      cases hmem
    · exact hx.queues d dev packet hd' hmem

theorem MuxTUN.closePeer_change (x : MuxTUN) (d : Nat) : x.Change (x.closePeer d) := by
  unfold closePeer
  split
  · exact ⟨fun _ h => h, fun _ h => h⟩
  next dev hdev =>
  refine ⟨fun q hq => ?_, fun came hx => ⟨fun q e => ?_, fun e dev' he => ?_,
    fun e dev' packet he hmem => ?_⟩⟩
  · dsimp only
    split
    · rw [SortedMap.get_insert]
      split
      · exact Option.some_ne_none _
      · exact hq
    · exact hq
  · unfold Attached
    dsimp only
    rw [Function.update_apply]
    -- in the table or not, the device itself is detached and the others are as before
    by_cases he : e = d
    · subst he
      rw [if_pos rfl]
      have hright : ¬∃ dev', some { dev with done := true, detached := true } = some dev' ∧
          dev'.peer = q ∧ dev'.detached = false := by
        rintro ⟨dev', hdev', -, hdet⟩
        cases hdev'
        cases hdet
      refine iff_of_false (fun hget => ?_) hright
      split at hget
      · next htable =>
        rw [SortedMap.get_insert] at hget
        split at hget
        · cases hget
        · next hne =>
          obtain ⟨dev', hdev', hpeer, -⟩ := (hx.table q e).mp hget
          rw [hdev] at hdev'
          cases hdev'
          exact hne hpeer
      · next htable =>
        have hatt := (hx.table q e).mp hget
        obtain ⟨dev', hdev', hpeer, -⟩ := hatt
        rw [hdev] at hdev'
        cases hdev'
        rw [hpeer] at htable
        exact htable hget
    · rw [if_neg he]
      refine Iff.trans ?_ (hx.table q e)
      split
      · next htable =>
        rw [SortedMap.get_insert]
        split
        · next hq =>
          rw [← hq, htable]
          refine iff_of_false (fun h => (by cases h)) fun h => he ?_
          cases h
          rfl
        · rfl
      · rfl
  · have he' : Function.update x.devices d _ e = some dev' := he
    rw [Function.update_apply] at he'
    split at he'
    · next heq => exact heq ▸ hx.below d dev hdev
    · exact hx.below e dev' he'
  · have he' : Function.update x.devices d _ e = some dev' := he
    rw [Function.update_apply] at he'
    split at he'
    · next heq =>
      cases he'
      exact heq ▸ hx.queues d dev packet hdev hmem
    · exact hx.queues e dev' packet he' hmem

variable {came came' : GoString → Nat → Prop}

theorem MuxTUN.Inv.devices (hx : x.Inv came) (hpeers : y.peers = x.peers)
    (hfresh : y.fresh = x.fresh)
    (hsome : ∀ d dev, x.devices d = some dev → ∃ dev', y.devices d = some dev' ∧
      dev'.peer = dev.peer ∧ dev'.detached = dev.detached)
    (hback : ∀ d dev', y.devices d = some dev' → ∃ dev, x.devices d = some dev ∧
      dev'.peer = dev.peer ∧ dev'.detached = dev.detached ∧
      ∀ packet ∈ dev'.queue, packet ∈ dev.queue ∨ came' packet d)
    (hmono : ∀ packet d, came packet d → came' packet d) : y.Inv came' where
  table p d := by
    rw [hpeers, hx.table]
    constructor
    · rintro ⟨dev, hdev, hpeer, hdet⟩
      obtain ⟨dev', hdev', hpeer', hdet'⟩ := hsome d dev hdev
      exact ⟨dev', hdev', hpeer'.trans hpeer, hdet'.trans hdet⟩
    · rintro ⟨dev', hdev', hpeer, hdet⟩
      obtain ⟨dev, hdev, hpeer', hdet', -⟩ := hback d dev' hdev'
      exact ⟨dev, hdev, hpeer'.symm.trans hpeer, hdet'.symm.trans hdet⟩
  below d dev' hdev' := by
    obtain ⟨dev, hdev, -⟩ := hback d dev' hdev'
    exact hfresh ▸ hx.below d dev hdev
  queues d dev' packet hdev' hmem := by
    obtain ⟨dev, hdev, -, -, hqueue⟩ := hback d dev' hdev'
    rcases hqueue packet hmem with hold | hnew
    · exact hmono packet d (hx.queues d dev packet hdev hold)
    · exact hnew

theorem MuxTUN.stopPeers_change (x : MuxTUN) : x.Change x.stopPeers := by
  refine ⟨fun _ h => h, fun came hx => hx.devices rfl rfl (fun d dev hdev => ?_)
    (fun d dev' hdev' => ?_) fun _ _ h => h⟩
  · have hmap : x.stopPeers.devices d = some (if x.peers[dev.peer]? = some (some d) then
        { dev with done := true } else dev) := congrArg (Option.map _) hdev
    refine ⟨_, hmap, ?_⟩
    split <;> exact ⟨rfl, rfl⟩
  · have hmap : (x.devices d).map _ = some dev' := hdev'
    obtain ⟨dev, hdev, rfl⟩ := Option.map_eq_some_iff.mp hmap
    refine ⟨dev, hdev, ?_⟩
    split <;> exact ⟨rfl, rfl, fun _ h => Or.inl h⟩

theorem MuxTUN.Inv.setQueue (hx : x.Inv came) (device : Option Nat) (queue : List GoString)
    (hqueue : ∀ d, device = some d → ∀ packet ∈ queue, packet ∈ x.queue (some d) ∨ came' packet d)
    (hmono : ∀ packet d, came packet d → came' packet d) : (x.setQueue device queue).Inv came' := by
  cases device with
  | none =>
    exact hx.devices rfl rfl (fun d dev hdev => ⟨dev, hdev, rfl, rfl⟩)
      (fun d dev hdev => ⟨dev, hdev, rfl, rfl, fun _ h => Or.inl h⟩) hmono
  | some e =>
    refine hx.devices rfl rfl (fun d dev hdev => ?_) (fun d dev' hdev' => ?_) hmono
    · show ∃ dev', Function.update x.devices e _ d = some dev' ∧ _
      rw [Function.update_apply]
      split
      · next hde =>
        rw [← hde, hdev]
        exact ⟨_, rfl, rfl, rfl⟩
      · exact ⟨dev, hdev, rfl, rfl⟩
    · have hupdate : Function.update x.devices e _ d = some dev' := hdev'
      rw [Function.update_apply] at hupdate
      split at hupdate
      · next hde =>
        subst hde
        obtain ⟨dev, hdev, rfl⟩ := Option.map_eq_some_iff.mp hupdate
        refine ⟨dev, hdev, rfl, rfl, fun packet hmem => ?_⟩
        have hold := hqueue d rfl packet hmem
        have hq : x.queue (some d) = dev.queue := by
          show ((x.devices d).map PeerTUN.queue).getD [] = _
          rw [hdev]
          rfl
        rw [hq] at hold
        exact hold
      · exact ⟨dev', hupdate, rfl, rfl, fun _ h => Or.inl h⟩

theorem MuxTUN.setQueue_peers (x : MuxTUN) (device : Option Nat) (queue : List GoString) :
    (x.setQueue device queue).peers = x.peers := by
  cases device <;> rfl

variable {packet : GoString}

theorem MuxTUN.dequeue_change {device : Option Nat} {rest : List GoString}
    (h : x.queue device = packet :: rest) : x.Change (x.setQueue device rest) := by
  refine ⟨fun p hp => ?_, fun came hx => hx.setQueue device rest ?_ fun _ _ h => h⟩
  · rw [setQueue_peers]
    exact hp
  · rintro d rfl q hq
    rw [h]
    exact Or.inl (List.mem_cons_of_mem packet hq)

theorem MuxTUN.deliver_peers (x : MuxTUN) (packet : GoString) :
    (x.deliver packet).peers = x.peers := by
  unfold deliver
  split
  · rfl
  · rfl
  · rfl

theorem MuxTUN.Inv.deliver (hx : x.Inv came) (packet : GoString)
    (hmono : ∀ packet d, came packet d → came' packet d)
    (hnoted : ∀ d, x.target packet = .peer d → came' packet d) : (x.deliver packet).Inv came' := by
  unfold MuxTUN.deliver
  split
  · exact hx.setQueue none _ (fun d hd => by cases hd) hmono
  · next d htarget =>
    refine hx.setQueue (some d) _ (fun e he q hq => ?_) hmono
    cases he
    rcases List.mem_append.mp hq with hold | hnew
    · exact Or.inl hold
    · rw [List.mem_singleton.mp hnew]
      exact Or.inr (hnoted d htarget)
  · exact ⟨hx.table, hx.below, fun d dev q hd hq => hmono q d (hx.queues d dev q hd hq)⟩

theorem MuxTUN.Inv.target (hx : x.Inv came) (hp : x.peers[p]? ≠ none) (hto : SentTo p packet) :
    x.target packet = .dropped ∨ ∃ d, x.target packet = .peer d ∧ x.Attached p d ∧
      ∀ e, x.Attached p e → e = d := by
  obtain ⟨src, haddresses⟩ := hto
  have hdest : x.destination packet = x.peers[p]? := by
    unfold destination
    rw [haddresses]
  unfold MuxTUN.target
  rw [hdest]
  cases hget : x.peers[p]? with
  | none => exact absurd hget hp
  | some entry =>
    cases entry with
    | none => exact Or.inl rfl
    | some d =>
      dsimp only
      split
      · refine Or.inr ⟨d, rfl, (hx.table p d).mp hget, fun e he => ?_⟩
        have hsame := (hx.table p e).mpr he
        rw [hget] at hsame
        cases hsame
        rfl
      · exact Or.inl rfl

/-! ## The invariant of the adapter -/

/-- What a call holds: a tested offset, a packet of its device. -/
def Progress.Ok (came : GoString → Nat → Prop) : Progress → Prop
  | .selecting _ args => 0 ≤ args.offset
  | .holding (some d) args => came args.packet d
  | _ => True

variable {progress : Progress}

theorem Progress.Ok.mono (h : ∀ packet d, came packet d → came' packet d) (hok : progress.Ok came) :
    progress.Ok came' := by
  unfold Ok at hok ⊢
  split at hok
  · exact hok
  · exact h _ _ hok
  · trivial

/-- The invariant. -/
structure Adapter.Inv (m : Adapter) : Prop where
  mux : m.mux.Inv m.Received
  calls : ∀ c call, m.calls c = some call → call.started ≤ m.events ∧ call.progress.Ok m.Received
  received : ∀ r ∈ m.received, r.started ≤ m.events ∧
    ∀ d, r.device = some d → m.Received r.packet d
  sent : ∀ s ∈ m.sent, s.started ≤ m.events
  dispatched : ∀ r ∈ m.dispatched, r.event ≤ m.events

/-- The packet that `Write` passes is from nobody reserved. -/
def Progress.Tested (x : MuxTUN) : Progress → Prop
  | .passing none b _ offset => x.source (b.drop offset.toNat) = none
  | _ => True

/-- A small move, with what was tested for it. -/
inductive Adapter.Move (m : Adapter) : Adapter → Prop
  | change (x : MuxTUN) (hx : m.mux.Change x) : Move m { m with mux := x }
  | policies (ps : Nat → Policy) : Move m { m with policies := ps }
  | batch (slots : List Slot) : Move m { m with batch := slots }
  | call (c : Nat) (call : MuxCall) (hold : m.calls c = some call ∨ call.started = m.events)
      (progress : Progress) (hok : m.Inv → progress.Ok m.Received)
      (htested : progress.Tested m.mux) : Move m (m.goto c call progress)
  | receive (c : Nat) (call : MuxCall) (hcall : m.calls c = some call) (device : Option Nat)
      (packet : GoString) (hcame : m.Inv → ∀ d, device = some d → m.Received packet d)
      (htested : device = none → m.mux.destination packet = none) :
    Move m { m with received := ⟨call.started, device, packet⟩ :: m.received }
  | send (c started : Nat) (device : Option Nat) (b : GoString) (bufs : List GoString)
      (offset : Int) (hcall : m.calls c = some ⟨started, .passing device b bufs offset⟩) :
    Move m { m with sent := ⟨started, device, b.drop offset.toNat⟩ :: m.sent }

/-- One or more moves. -/
abbrev Adapter.Moves : Adapter → Adapter → Prop := Relation.ReflTransGen Adapter.Move

/-- A packet of the batch is dispatched. -/
def Adapter.handled (m : Adapter) (batch : List Slot) (packet : GoString) : Adapter :=
  { m with
    batch
    mux := m.mux.deliver packet
    dispatched := ⟨m.events, packet, m.mux.target packet⟩ :: m.dispatched }

/-! ## What an event can do -/

section Effects

variable (m : Adapter)

theorem Adapter.Moves.change {m : Adapter} (hx : m.mux.Change x) :
    m.Moves { m with mux := x } := .single (.change x hx)

variable {c : Nat} {call : MuxCall}

theorem Adapter.goto_moves (hcall : m.calls c = some call) (hok : ∀ came, progress.Ok came)
    (htested : progress.Tested m.mux) : m.Moves (m.goto c call progress) :=
  .single (.call c call (Or.inl hcall) progress (fun _ => hok _) htested)

theorem Adapter.Moves.goto {m m' : Adapter} (h : m.Moves m') (hcall : m'.calls c = some call)
    (hok : ∀ came, progress.Ok came) (htested : progress.Tested m'.mux) :
    m.Moves (m'.goto c call progress) :=
  Relation.ReflTransGen.trans h (m'.goto_moves hcall hok htested)

theorem Adapter.begin_moves (c : Nat) (hok : ∀ came, progress.Ok came)
    (htested : progress.Tested m.mux) : m.Moves (m.begin c progress) := by
  unfold «begin»
  split
  · exact .refl
  · exact .single (.call c ⟨m.events, progress⟩ (Or.inr rfl) progress (fun _ => hok _) htested)

theorem Adapter.attach_moves (c : Nat) (peer : Addr) (policy : Option Nat) :
    m.Moves (m.attach c peer policy) := by
  unfold attach
  split
  · exact .refl
  split
  · exact .refl
  · next x hx =>
    exact (Moves.change (MuxTUN.reserve_change hx)).trans
      (begin_moves _ c (fun _ => trivial) trivial)

theorem Adapter.bind_moves (c : Nat) : m.Moves (m.bind c) := by
  unfold Adapter.bind
  split
  · next started peer k hcall =>
    split
    · exact goto_moves _ hcall (fun _ => trivial) trivial
    · next x hx =>
      exact (Moves.change (MuxTUN.bind_change hx)).goto hcall (fun _ => trivial) trivial
  · exact .refl

theorem Adapter.probe_moves (c : Nat) : m.Moves (m.probe c) := by
  unfold probe
  split
  · next started device args hcall =>
    split
    · exact goto_moves _ hcall (fun _ => trivial) trivial
    · next hpassed =>
      refine goto_moves _ hcall (fun _ => ?_) trivial
      show 0 ≤ args.offset
      simp only [ReadArgs.short, Bool.or_eq_true, decide_eq_true_eq, not_or, not_lt] at hpassed
      exact hpassed.1.2
  · exact .refl

theorem Adapter.select_moves (c : Nat) (fromQueue : Bool) : m.Moves (m.select c fromQueue) := by
  unfold select
  split
  · next started device args hcall =>
    split
    · split
      · exact .refl
      · next packet rest hqueue =>
        have hdequeue := MuxTUN.dequeue_change hqueue
        dsimp only
        split
        · exact (Moves.change hdequeue).goto hcall (fun _ => trivial) trivial
        · next args' hcopy =>
          -- the packet is taken over by the call while it is still in the queue
          have hhold : m.Moves (m.goto c ⟨started, .selecting device args⟩
              (.holding device args')) := by
            refine .single (.call c _ (Or.inl hcall) _ (fun hinv => ?_) trivial)
            cases device with
            | none => trivial
            | some d =>
              show m.Received args'.packet d
              rw [ReadArgs.packet_copy hcopy (hinv.calls c _ hcall).2]
              have hqueue' : ((m.mux.devices d).map PeerTUN.queue).getD [] = packet :: rest :=
                hqueue
              cases hdev : m.mux.devices d with
              | none =>
                rw [hdev] at hqueue'
                cases hqueue'
              | some dev =>
                rw [hdev] at hqueue'
                have hq : dev.queue = packet :: rest := hqueue'
                exact hinv.mux.queues d dev packet hdev (hq ▸ List.mem_cons_self)
          exact hhold.trans (Moves.change hdequeue)
    · split
      · exact goto_moves _ hcall (fun _ => trivial) trivial
      · exact .refl
  · exact .refl

theorem Adapter.filter_eq (d : Nat) (packet : GoString) (outbound : Bool)
    (authorization : Option Authorization) (now : Int) :
    ∃ ps, (m.filter d packet outbound authorization now).1 = { m with policies := ps } := by
  unfold filter
  split
  · exact ⟨m.policies, rfl⟩
  · exact ⟨_, rfl⟩

theorem Adapter.receive_moves (hcall : m.calls c = some call) {device : Option Nat}
    (hcame : m.Inv → ∀ d, device = some d → m.Received packet d)
    (htested : device = none → m.mux.destination packet = none) :
    m.Moves (m.receive c call device packet) := by
  have hlog : m.Moves { m with received := ⟨call.started, device, packet⟩ :: m.received } :=
    .single (.receive c call hcall device packet hcame htested)
  exact hlog.goto hcall (fun _ => trivial) trivial

theorem Adapter.check_moves (c : Nat) (authorization : Option Authorization) (now : Int) :
    m.Moves (m.check c authorization now) := by
  unfold check
  split
  · next started args hcall =>
    split
    · exact goto_moves _ hcall (fun _ => trivial) trivial
    · next hfree =>
      refine receive_moves _ hcall (fun _ d hd => (by cases hd)) fun _ => ?_
      exact Option.not_isSome_iff_eq_none.mp hfree
  · next started d args hcall =>
    obtain ⟨ps, hps⟩ := m.filter_eq d args.packet true authorization now
    have hfilter : m.Moves { m with policies := ps } := .single (.policies ps)
    dsimp only
    rw [hps]
    split
    · refine hfilter.trans ?_
      refine receive_moves { m with policies := ps } hcall (fun hinv e he => ?_) fun h => ?_
      · cases he
        exact (hinv.calls c _ hcall).2
      · cases h
    · exact hfilter.goto hcall (fun _ => trivial) trivial
  · exact .refl

theorem Adapter.test_moves (c : Nat) (authorization : Option Authorization) (now : Int) :
    m.Moves (m.test c authorization now) := by
  unfold test
  split
  · next hcall => exact goto_moves _ hcall (fun _ => trivial) trivial
  · next started b bufs offset hcall =>
    split
    · exact goto_moves _ hcall (fun _ => trivial) trivial
    split
    · exact goto_moves _ hcall (fun _ => trivial) trivial
    · next hfree =>
      exact goto_moves _ hcall (fun _ => trivial) (Option.not_isSome_iff_eq_none.mp hfree)
  · next started d b bufs offset hcall =>
    split
    · exact goto_moves _ hcall (fun _ => trivial) trivial
    obtain ⟨ps, hps⟩ := m.filter_eq d (b.drop offset.toNat) false authorization now
    have hfilter : m.Moves { m with policies := ps } := .single (.policies ps)
    dsimp only
    rw [hps]
    split
    · exact hfilter.goto hcall (fun _ => trivial) trivial
    split
    · exact hfilter.goto hcall (fun _ => trivial) trivial
    · exact hfilter.goto hcall (fun _ => trivial) trivial
  · exact .refl

theorem Adapter.pass_moves (c : Nat) (ok : Bool) : m.Moves (m.pass c ok) := by
  unfold pass
  split
  · next started device b bufs offset hcall =>
    have hlog : m.Moves { m with sent := ⟨started, device, b.drop offset.toNat⟩ :: m.sent } :=
      .single (.send c started device b bufs offset hcall)
    cases ok
    · exact hlog.goto hcall (fun _ => trivial) trivial
    · exact hlog.goto hcall (fun _ => trivial) trivial
  · exact .refl

/-- **An event is a list of moves, or the dispatcher handles a packet.** -/
theorem Adapter.effect_cases (event : MuxEvent) :
    m.Moves (m.effect event) ∨ ∃ batch packet, m.effect event = m.handled batch packet := by
  cases event with
  | dispatch =>
    show m.Moves m.dispatch ∨ ∃ batch packet, m.dispatch = m.handled batch packet
    unfold dispatch
    split
    · exact Or.inl .refl
    split
    · exact Or.inl (.single (.batch _))
    · exact Or.inr ⟨_, _, rfl⟩
  | reserve peer =>
    refine Or.inl ?_
    unfold effect
    dsimp only
    split
    · exact .refl
    · next hx => exact .change (MuxTUN.reserve_change hx)
  | attach c peer policy => exact Or.inl (m.attach_moves c peer policy)
  | bind c => exact Or.inl (m.bind_moves c)
  | read c device args => exact Or.inl (m.begin_moves c (fun _ => trivial) trivial)
  | probe c => exact Or.inl (m.probe_moves c)
  | select c fromQueue => exact Or.inl (m.select_moves c fromQueue)
  | check c authorization now => exact Or.inl (m.check_moves c authorization now)
  | write c device bufs offset => exact Or.inl (m.begin_moves c (fun _ => trivial) trivial)
  | test c authorization now => exact Or.inl (m.test_moves c authorization now)
  | pass c ok => exact Or.inl (m.pass_moves c ok)
  | batch slots =>
    refine Or.inl ?_
    unfold effect
    dsimp only
    split
    · exact .single (.batch slots)
    · exact .refl
  | closePeer d => exact Or.inl (.change (m.mux.closePeer_change d))
  | revoke k => exact Or.inl (.single (.policies _))
  | signalClose =>
    exact Or.inl (.change ⟨fun _ h => h, fun _ h => ⟨h.table, h.below, h.queues⟩⟩)
  | stopPeers =>
    refine Or.inl ?_
    unfold effect
    dsimp only
    split
    · exact .change m.mux.stopPeers_change
    · exact .refl

end Effects

/-! ## Moves keep the rules -/

theorem Adapter.Moves.log {m m' : Adapter} (h : m.Moves m') :
    m'.events = m.events ∧ m'.dispatched = m.dispatched := by
  induction h with
  | refl => exact ⟨rfl, rfl⟩
  | tail _ hmove ih => cases hmove <;> exact ih

theorem Adapter.Inv.move {m m' : Adapter} (h : m.Inv) (hmove : m.Move m') : m'.Inv := by
  cases hmove with
  | change x hx => exact ⟨hx.inv _ h.mux, h.calls, h.received, h.sent, h.dispatched⟩
  | policies ps => exact ⟨h.mux, h.calls, h.received, h.sent, h.dispatched⟩
  | batch slots => exact ⟨h.mux, h.calls, h.received, h.sent, h.dispatched⟩
  | call c call hold progress hok htested =>
    refine ⟨h.mux, fun k call' hk => ?_, h.received, h.sent, h.dispatched⟩
    have hk' : Function.update m.calls c _ k = some call' := hk
    rw [Function.update_apply] at hk'
    split at hk'
    · cases hk'
      refine ⟨?_, hok h⟩
      rcases hold with hold | hnew
      · exact (h.calls c call hold).1
      · exact le_of_eq hnew
    · exact h.calls k call' hk'
  | receive c call hcall device packet hcame htested =>
    refine ⟨h.mux, h.calls, fun r hr => ?_, h.sent, h.dispatched⟩
    rcases List.mem_cons.mp hr with rfl | hold
    · exact ⟨(h.calls c call hcall).1, hcame h⟩
    · exact h.received r hold
  | send c started device b bufs offset hcall =>
    refine ⟨h.mux, h.calls, h.received, fun s hs => ?_, h.dispatched⟩
    rcases List.mem_cons.mp hs with rfl | hold
    · exact (h.calls c _ hcall).1
    · exact h.sent s hold

theorem Adapter.Inv.handled {m : Adapter} (h : m.Inv) (batch : List Slot) (packet : GoString) :
    (m.handled batch packet).Inv := by
  have hmono : ∀ q d, m.Received q d → (m.handled batch packet).Received q d := by
    rintro q d ⟨r, hr, hpacket, htarget⟩
    exact ⟨r, List.mem_cons_of_mem _ hr, hpacket, htarget⟩
  refine ⟨h.mux.deliver packet hmono fun d hd => ⟨_, List.mem_cons_self, rfl, hd⟩,
    fun c call hc => ?_, fun r hr => ?_, h.sent, fun r hr => ?_⟩
  · obtain ⟨hstarted, hok⟩ := h.calls c call hc
    exact ⟨hstarted, hok.mono hmono⟩
  · obtain ⟨hstarted, hcame⟩ := h.received r hr
    exact ⟨hstarted, fun d hd => hmono _ d (hcame d hd)⟩
  · rcases List.mem_cons.mp hr with rfl | hold
    · exact le_refl _
    · exact h.dispatched r hold

theorem Adapter.effect_events (m : Adapter) (event : MuxEvent) :
    (m.effect event).events = m.events := by
  rcases m.effect_cases event with hmoves | ⟨batch, packet, heq⟩
  · exact hmoves.log.1
  · rw [heq]
    rfl

theorem Adapter.Inv.effect {m : Adapter} (h : m.Inv) (event : MuxEvent) :
    (m.effect event).Inv := by
  rcases m.effect_cases event with hmoves | ⟨batch, packet, heq⟩
  · exact Relation.ReflTransGen.head_induction_on hmoves
      (motive := fun a _ => a.Inv → (m.effect event).Inv) (fun h => h)
      (fun hmove _ ih ha => ih (ha.move hmove)) h
  · rw [heq]
    exact h.handled batch packet

theorem Adapter.Inv.step {m : Adapter} (h : m.Inv) (event : MuxEvent) : (m.step event).Inv := by
  have hinv := h.effect event
  have hle : (m.effect event).events ≤ m.events + 1 := by
    rw [m.effect_events event]
    omega
  exact
    { mux := hinv.mux
      calls := fun c call hc =>
        ⟨le_trans (hinv.calls c call hc).1 hle, (hinv.calls c call hc).2⟩
      received := fun r hr => ⟨le_trans (hinv.received r hr).1 hle, (hinv.received r hr).2⟩
      sent := fun s hs => le_trans (hinv.sent s hs) hle
      dispatched := fun r hr => le_trans (hinv.dispatched r hr) hle }

theorem Adapter.Inv.start (policies : Nat → Policy) : (Adapter.start policies).Inv where
  mux :=
    { table := fun p d => by
        show (∅ : SortedMap Addr (Option Nat))[p]? = some (some d) ↔ _
        rw [SortedMap.get_empty]
        exact ⟨fun h => (by cases h), fun ⟨_, h, _⟩ => (by cases h)⟩
      below := fun _ _ h => (by cases h)
      queues := fun _ _ _ h _ => (by cases h) }
  calls _ _ h := by cases h
  received _ h := by cases h
  sent _ h := by cases h
  dispatched _ h := by cases h

/-! ## A reservation -/

/-- The peer is reserved, and calls that started after `n` keep to it. -/
structure Adapter.Sealed (m : Adapter) (p : Addr) (n : Nat) : Prop where
  reserved : m.mux.peers[p]? ≠ none
  passing : ∀ c started b bufs offset, m.calls c = some ⟨started, .passing none b bufs offset⟩ →
    n < started → ¬SentFrom p (b.drop offset.toNat)
  received : ∀ r ∈ m.received, r.device = none → n < r.started → ¬SentTo p r.packet
  sent : ∀ s ∈ m.sent, s.device = none → n < s.started → ¬SentFrom p s.packet

theorem MuxTUN.not_sentTo (hp : x.peers[p]? ≠ none) (h : x.destination packet = none) :
    ¬SentTo p packet := by
  rintro ⟨src, haddresses⟩
  unfold destination at h
  rw [haddresses] at h
  exact hp h

theorem MuxTUN.not_sentFrom (hp : x.peers[p]? ≠ none) (h : x.source packet = none) :
    ¬SentFrom p packet := by
  rintro ⟨dst, haddresses⟩
  unfold source at h
  rw [haddresses] at h
  exact hp h

variable {n : Nat}

theorem Adapter.Sealed.move {m m' : Adapter} (h : m.Sealed p n) (hmove : m.Move m') :
    m'.Sealed p n := by
  cases hmove with
  | change x hx => exact ⟨hx.keeps p h.reserved, h.passing, h.received, h.sent⟩
  | policies ps => exact ⟨h.reserved, h.passing, h.received, h.sent⟩
  | batch slots => exact ⟨h.reserved, h.passing, h.received, h.sent⟩
  | call c call hold progress hok htested =>
    refine ⟨h.reserved, fun k started b bufs offset hk hlate => ?_, h.received, h.sent⟩
    have hk' : Function.update m.calls c _ k = some ⟨started, _⟩ := hk
    rw [Function.update_apply] at hk'
    split at hk'
    · cases hk'
      exact MuxTUN.not_sentFrom h.reserved htested
    · exact h.passing k started b bufs offset hk' hlate
  | receive c call hcall device packet hcame htested =>
    refine ⟨h.reserved, h.passing, fun r hr hgateway hlate => ?_, h.sent⟩
    rcases List.mem_cons.mp hr with rfl | hold
    · exact MuxTUN.not_sentTo h.reserved (htested hgateway)
    · exact h.received r hold hgateway hlate
  | send c started device b bufs offset hcall =>
    refine ⟨h.reserved, h.passing, h.received, fun s hs hgateway hlate => ?_⟩
    rcases List.mem_cons.mp hs with rfl | hold
    · have hnone : device = none := hgateway
      subst hnone
      exact h.passing c started b bufs offset hcall hlate
    · exact h.sent s hold hgateway hlate

theorem Adapter.Sealed.step {m : Adapter} (h : m.Sealed p n) (event : MuxEvent) :
    (m.step event).Sealed p n := by
  have heffect : (m.effect event).Sealed p n := by
    rcases m.effect_cases event with hmoves | ⟨batch, packet, heq⟩
    · exact Relation.ReflTransGen.head_induction_on hmoves
        (motive := fun a _ => a.Sealed p n → (m.effect event).Sealed p n) (fun h => h)
        (fun hmove _ ih ha => ih (ha.move hmove)) h
    · rw [heq]
      refine ⟨?_, h.passing, h.received, h.sent⟩
      show (m.mux.deliver packet).peers[p]? ≠ none
      rw [MuxTUN.deliver_peers]
      exact h.reserved
  exact ⟨heffect.reserved, heffect.passing, heffect.received, heffect.sent⟩

theorem Adapter.Inv.reserves {m : Adapter} (h : m.Inv) {event : MuxEvent}
    (hreserves : m.Reserves event p) : (m.step event).Sealed p m.events := by
  have hinv := h.effect event
  have hevents := m.effect_events event
  have hkey : (m.effect event).mux.peers[p]? ≠ none := by
    rcases hreserves with ⟨rfl, x, hx⟩ | ⟨c, started, k, x, rfl, hcall, hx⟩
    · have heffect : (m.effect (.reserve p)).mux = x := by
        unfold Adapter.effect
        dsimp only
        rw [hx]
      rw [heffect]
      exact (MuxTUN.reserve_ok hx).1
    · have heffect : (m.effect (.bind c)).mux = x := by
        show (m.bind c).mux = x
        unfold Adapter.bind
        rw [hcall]
        dsimp only
        rw [hx]
        rfl
      rw [heffect, (MuxTUN.bind_ok hx).2]
      dsimp only
      rw [SortedMap.get_insert_self]
      exact Option.some_ne_none _
  refine ⟨hkey, fun c started b bufs offset hc hlate => ?_, fun r hr _ hlate => ?_,
    fun s hs _ hlate => ?_⟩
  · have hle : started ≤ (m.effect event).events := (hinv.calls c _ hc).1
    omega
  · have hle := (hinv.received r hr).1
    omega
  · have hle := hinv.sent s hs
    omega

/-! ## Whole runs -/

theorem Adapter.run_append (m : Adapter) (before after : List MuxEvent) :
    m.run (before ++ after) = (m.run before).run after := List.foldl_append

theorem Adapter.run_events (m : Adapter) (events : List MuxEvent) :
    (m.run events).events = m.events + events.length := by
  induction events using List.reverseRecOn with
  | nil => rfl
  | append_singleton events event ih =>
    rw [run_append, List.length_append]
    show (m.run events).events + 1 = _
    rw [ih]
    rfl

theorem Adapter.Inv.run {m : Adapter} (h : m.Inv) (events : List MuxEvent) :
    (m.run events).Inv := by
  induction events using List.reverseRecOn with
  | nil => exact h
  | append_singleton events event ih =>
    rw [run_append]
    exact ih.step event

theorem Adapter.Sealed.run {m : Adapter} (h : m.Sealed p n) (events : List MuxEvent) :
    (m.run events).Sealed p n := by
  induction events using List.reverseRecOn with
  | nil => exact h
  | append_singleton events event ih =>
    rw [run_append]
    exact ih.step event

/-- **A dispatched packet went where the state of that moment sends it.** -/
theorem Adapter.dispatched_at (policies : Nat → Policy) (events : List MuxEvent) :
    ∀ r ∈ ((start policies).run events).dispatched, r.event < events.length ∧
      r.target = ((start policies).run (events.take r.event)).mux.target r.packet := by
  induction events using List.reverseRecOn with
  | nil => exact fun r hr => by cases hr
  | append_singleton events event ih =>
    intro r hr
    rw [run_append] at hr
    have hold : r ∈ ((start policies).run events).dispatched →
        r.event < (events ++ [event]).length ∧
          r.target =
            ((start policies).run ((events ++ [event]).take r.event)).mux.target r.packet := by
      intro hr'
      obtain ⟨hlt, htarget⟩ := ih r hr'
      rw [List.take_append_of_le_length (le_of_lt hlt), List.length_append]
      exact ⟨Nat.lt_add_right _ hlt, htarget⟩
    have heffect : r ∈ (((start policies).run events).effect event).dispatched := hr
    rcases ((start policies).run events).effect_cases event with hmoves | ⟨batch, packet, heq⟩
    · rw [hmoves.log.2] at heffect
      exact hold heffect
    · rw [heq] at heffect
      rcases List.mem_cons.mp heffect with rfl | hmem
      · -- the new entry carries the number of this event
        have hevents : ((start policies).run events).events = events.length :=
          (run_events _ _).trans (Nat.zero_add _)
        dsimp only
        rw [hevents, List.take_left, List.length_append]
        exact ⟨Nat.lt_add_one _, rfl⟩
      · exact hold hmem

/-- **A reserved peer never falls back.**  The event that reserves the peer has number
    `pre.length`.  A gateway `Read` that starts later returns no packet to the peer, a gateway
    `Write` passes none from it; a packet to the peer that is dispatched later goes to the device
    attached for the peer at that moment, or nowhere; and a peer's device returns only what was
    dispatched to it. -/
theorem reserved_peer_never_falls_back (policies : Nat → Policy) (pre post : List MuxEvent)
    (event : MuxEvent) (p : Addr)
    (hreserves : ((Adapter.start policies).run pre).Reserves event p) :
    let state := fun events => (Adapter.start policies).run events
    let all := pre ++ event :: post
    (∀ r ∈ (state all).received, r.device = none → pre.length < r.started →
      ¬SentTo p r.packet) ∧
    (∀ s ∈ (state all).sent, s.device = none → pre.length < s.started →
      ¬SentFrom p s.packet) ∧
    (∀ r ∈ (state all).dispatched, pre.length < r.event → SentTo p r.packet →
      r.target = .dropped ∨ ∃ d, r.target = .peer d ∧
        (state (all.take r.event)).mux.Attached p d ∧
        ∀ e, (state (all.take r.event)).mux.Attached p e → e = d) ∧
    (∀ r ∈ (state all).received, ∀ d, r.device = some d →
      ∃ s ∈ (state all).dispatched, s.packet = r.packet ∧ s.target = .peer d) := by
  intro state all
  have hpre := (Adapter.Inv.start policies).run pre
  have hevents : ((Adapter.start policies).run pre).events = pre.length :=
    (Adapter.run_events _ _).trans (Nat.zero_add _)
  -- the states after the reservation, also those in the middle of the run
  have hsealed : ∀ later, (state (pre ++ event :: later)).Sealed p pre.length := by
    intro later
    have hsplit : state (pre ++ event :: later) =
        (((Adapter.start policies).run pre).step event).run later :=
      Adapter.run_append _ _ _
    rw [hsplit, ← hevents]
    exact (hpre.reserves hreserves).run later
  refine ⟨(hsealed post).received, (hsealed post).sent, fun r hr hlate hto => ?_,
    fun r hr d hd => ((((Adapter.Inv.start policies).run all).received r hr).2 d hd)⟩
  obtain ⟨-, htarget⟩ := Adapter.dispatched_at policies all r hr
  rw [htarget]
  have hmiddle : all.take r.event = pre ++ event :: post.take (r.event - pre.length - 1) := by
    show (pre ++ event :: post).take r.event = _
    rw [List.take_append, List.take_of_length_le (le_of_lt hlate)]
    obtain ⟨k, hk⟩ : ∃ k, r.event - pre.length = k + 1 := ⟨r.event - pre.length - 1, by omega⟩
    rw [hk]
    rfl
  have hreserved : (state (all.take r.event)).mux.peers[p]? ≠ none := by
    rw [hmiddle]
    exact (hsealed _).reserved
  exact ((Adapter.Inv.start policies).run (all.take r.event)).mux.target hreserved hto

/-- A packet to Device 3. -/
def pilotPacket : GoString := 0x45 :: List.replicate 11 0 ++ [10, 253, 0, 2, 10, 253, 0, 3]

/-- A batch with that packet. -/
def pilotBatch : List Slot := [⟨pilotPacket, 20⟩]

/-- The gateway asks for a packet and looks at what it gets. -/
def pilotRead (c : Nat) : List MuxEvent :=
  [.read c none ⟨[List.replicate 20 0], [0], 0⟩, .probe c, .select c true, .check c none 0]

/-- One policy for every call. -/
def pilotPolicies (_ : Nat) : Policy := ⟨pilotSession, .initiator, false, ∅, 0⟩

/-- The gateway reads after the peer was reserved, or without that. -/
def pilotMux (reservation : List MuxEvent) : Adapter :=
  (Adapter.start pilotPolicies).run ([.batch pilotBatch, .dispatch] ++ (reservation ++
    (pilotRead 0 ++ [.batch pilotBatch, .dispatch])))

/-- A queued packet is not returned once the peer is reserved; otherwise it is. -/
theorem reserved_peer_never_falls_back_queued :
    (pilotMux []).received.map Returned.packet = [pilotPacket] ∧
      (∀ r ∈ (pilotMux [.reserve (.v4 10 253 0 3)]).received,
        r.device = none → 2 < r.started → ¬SentTo (.v4 10 253 0 3) r.packet) ∧
      (pilotMux [.reserve (.v4 10 253 0 3)]).dispatched.map Dispatched.target =
          [.dropped, .gateway] := by
  have hreserves : ((Adapter.start pilotPolicies).run [.batch pilotBatch, .dispatch]).Reserves
      (.reserve (.v4 10 253 0 3)) (.v4 10 253 0 3) := by
    have hok : (((Adapter.start pilotPolicies).run [.batch pilotBatch, .dispatch]).mux.reserve
        (.v4 10 253 0 3)).isOk = true := by decide +kernel
    refine Or.inl ⟨rfl, ?_⟩
    revert hok
    cases MuxTUN.reserve _ _ with
    | ok x => exact fun _ => ⟨x, rfl⟩
    | error e => exact fun h => by cases h
  have h := reserved_peer_never_falls_back pilotPolicies [.batch pilotBatch, .dispatch]
    (pilotRead 0 ++ [.batch pilotBatch, .dispatch]) (.reserve (.v4 10 253 0 3))
    (.v4 10 253 0 3) hreserves
  exact ⟨by decide +kernel, h.1, by decide +kernel⟩

end Bpc.P2P
