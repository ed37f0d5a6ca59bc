/-
  The SHARED ADAPTER of an endpoint (`internal/p2p/mux.go`): a dispatcher reads one OS adapter for
  the gateway device and one device per attached peer.

  The table holds `nil` for a peer that is reserved and not attached.  A call goes from stage to
  stage, one lock or channel operation at a time.  The event number a call carries and the logs
  decide nothing.
-/
import Bpc.P2P.PacketFilter

namespace Bpc.P2P

open Routed (GoString)

/-! ## Addresses as keys -/

/-- An address as a list of bytes, by which addresses are ordered. -/
def Addr.bytes : Addr → List UInt8
  | .v4 a b c d => [4, a, b, c, d]
  | .other text => 0 :: text

instance : Ord Addr := ⟨compareOn Addr.bytes⟩

instance : Std.TransOrd Addr := inferInstanceAs (Std.TransCmp (compareOn Addr.bytes))

instance : Std.LawfulEqOrd Addr where
  eq_of_compare {a b} h := by
    have hbytes : a.bytes = b.bytes := Std.LawfulEqOrd.eq_of_compare h
    cases a <;> cases b <;> simp_all [Addr.bytes]

/-- `packetAddresses`: source and destination of an IPv4 packet. -/
def packetAddresses (p : GoString) : Option (Addr × Addr) :=
  if p.length < 20 ∨ byte p 0 >>> 4 ≠ 4 then none else some (addrFrom4 p 12, addrFrom4 p 16)

/-! ## The table -/

/-- The capacity of a queue. -/
def queueCapacity : Nat := 128

/-- `peerTUN` with its filter.  `detached`: `Close` was called. -/
structure PeerTUN where
  peer : Addr
  queue : List GoString
  done : Bool
  policy : Nat
  detached : Bool

/-- `MuxTUN`. -/
structure MuxTUN where
  peers : SortedMap Addr (Option Nat)
  gateway : List GoString
  done : Bool
  /-- The heap: device number `d`, for `d` below `fresh`. -/
  devices : Nat → Option PeerTUN
  fresh : Nat

/-- `NewMuxTUN`. -/
def newMuxTUN : MuxTUN :=
  { peers := ∅, gateway := [], done := false, devices := fun _ => none, fresh := 0 }

/-- `Reserve`. -/
def MuxTUN.reserve (m : MuxTUN) (peer : Addr) : Except String MuxTUN :=
  if m.done then .error "io: read/write on closed pipe"
  else if !peer.is4 || !peer.isPrivate then .error "private peer /32 required"
  else
    match m.peers[peer]? with
    | some _ => .ok m
    | none =>
      if maxManagedSessions ≤ m.peers.size then .error "P2P reservation limit reached"
      else .ok { m with peers := m.peers.insert peer none }

/-- `Attach`, after its call of `Reserve`. -/
def MuxTUN.bind (m : MuxTUN) (peer : Addr) (policy : Nat) (g : Grant) (side : Side) :
    Except String MuxTUN :=
  if m.done then .error "io: read/write on closed pipe"
  else if (m.peers[peer]?.join).isSome then .error "P2P peer already attached"
  else if (g.participant side.other).address ≠ peer then .error "P2P mux peer mismatch"
  else .ok { m with
    peers := m.peers.insert peer (some m.fresh)
    devices := Function.update m.devices m.fresh (some ⟨peer, [], false, policy, false⟩)
    fresh := m.fresh + 1 }

/-- `peerTUN.Close`. -/
def MuxTUN.closePeer (m : MuxTUN) (d : Nat) : MuxTUN :=
  match m.devices d with
  | none => m
  | some dev => { m with
      devices := Function.update m.devices d (some { dev with done := true, detached := true })
      peers := if m.peers[dev.peer]? = some (some d) then m.peers.insert dev.peer none
        else m.peers }

/-- The second half of `signalClose`: every attached device is stopped. -/
def MuxTUN.stopPeers (m : MuxTUN) : MuxTUN :=
  { m with devices := fun d => (m.devices d).map fun dev =>
      if m.peers[dev.peer]? = some (some d) then { dev with done := true } else dev }

/-- What the table says about the destination of a packet. -/
def MuxTUN.destination (m : MuxTUN) (packet : GoString) : Option (Option Nat) :=
  match packetAddresses packet with
  | none => none
  | some (_, dst) => m.peers[dst]?

/-- What the table says about the source of a packet. -/
def MuxTUN.source (m : MuxTUN) (packet : GoString) : Option (Option Nat) :=
  match packetAddresses packet with
  | none => none
  | some (src, _) => m.peers[src]?

/-- The packets of a device, the gateway or a peer's. -/
def MuxTUN.queue (m : MuxTUN) : Option Nat → List GoString
  | none => m.gateway
  | some d => ((m.devices d).map PeerTUN.queue).getD []

/-- The queue of a device is changed. -/
def MuxTUN.setQueue (m : MuxTUN) (reader : Option Nat) (queue : List GoString) : MuxTUN :=
  match reader with
  | none => { m with gateway := queue }
  | some d => { m with
      devices := Function.update m.devices d ((m.devices d).map fun dev => { dev with queue }) }

/-- The `done` channel of a device is closed. -/
def MuxTUN.closed (m : MuxTUN) : Option Nat → Bool
  | none => m.done
  | some d => ((m.devices d).map PeerTUN.done).getD true

/-- Where the dispatcher puts a packet. -/
inductive Target where
  | gateway
  | peer (device : Nat)
  | dropped
  deriving DecidableEq

/-- The choice of the dispatcher; a full queue drops the packet. -/
def MuxTUN.target (m : MuxTUN) (packet : GoString) : Target :=
  match m.destination packet with
  | some (some d) => if (m.queue (some d)).length < queueCapacity then .peer d else .dropped
  | some none => .dropped
  | none => if m.gateway.length < queueCapacity then .gateway else .dropped

/-- A packet goes to its queue. -/
def MuxTUN.deliver (m : MuxTUN) (packet : GoString) : MuxTUN :=
  match m.target packet with
  | .gateway => m.setQueue none (m.gateway ++ [packet])
  | .peer d => m.setQueue (some d) (m.queue (some d) ++ [packet])
  | .dropped => m

/-! ## Calls -/

/-- One slot of a batch of the adapter, with the size it reports. -/
structure Slot where
  buf : GoString
  size : Int

/-- The packet of a slot, unless the size is not one of the buffer's. -/
def Slot.packet (s : Slot) : Option GoString :=
  if s.size < 0 ∨ (s.buf.length : Int) < s.size then none else some (s.buf.take s.size.toNat)

/-- The arguments of `Read`. -/
structure ReadArgs where
  bufs : List GoString
  sizes : List Int
  offset : Int

/-- `len(bufs) == 0 || len(sizes) == 0 || offset < 0`. -/
def ReadArgs.short (a : ReadArgs) : Bool :=
  a.bufs.isEmpty || a.sizes.isEmpty || decide (a.offset < 0)

/-- `copy(bufs[0][offset:], p)`, unless the packet does not fit. -/
def ReadArgs.copy (a : ReadArgs) (p : GoString) : Option ReadArgs :=
  match a.bufs, a.sizes with
  | b :: bufs, _ :: sizes =>
    if (b.length : Int) < a.offset ∨ (b.length : Int) - a.offset < p.length then none
    else some { a with
      bufs := (b.take a.offset.toNat ++ p ++ b.drop (a.offset.toNat + p.length)) :: bufs
      sizes := p.length :: sizes }
  | _, _ => none

/-- `bufs[0][offset:offset+sizes[0]]`. -/
def ReadArgs.packet (a : ReadArgs) : GoString :=
  ((a.bufs.headD []).drop a.offset.toNat).take (a.sizes.headD 0).toNat

/-- How far a call has come; the device is `none` for the gateway's. -/
inductive Progress where
  /-- `Attach`, after `Reserve`. -/
  | attaching (peer : Addr) (policy : Nat)
  /-- `Read`, at the top of its loop. -/
  | reading (device : Option Nat) (args : ReadArgs)
  /-- `readPacket`, past the first look at `done`. -/
  | selecting (device : Option Nat) (args : ReadArgs)
  /-- `Read`, with a packet in the first buffer. -/
  | holding (device : Option Nat) (args : ReadArgs)
  /-- `Write`, with these buffers to go. -/
  | writing (device : Option Nat) (bufs : List GoString) (offset : Int)
  /-- `Write`, about to hand the first of these buffers to the adapter. -/
  | passing (device : Option Nat) (buf : GoString) (bufs : List GoString) (offset : Int)
  | returned

/-- A call with the event it started at. -/
structure MuxCall where
  started : Nat
  progress : Progress

/-- A packet that `Read` returned. -/
structure Returned where
  started : Nat
  device : Option Nat
  packet : GoString

/-- A packet that `Write` passed to the adapter. -/
structure Passed where
  started : Nat
  device : Option Nat
  packet : GoString

/-- A packet that the dispatcher took from the adapter. -/
structure Dispatched where
  event : Nat
  packet : GoString
  target : Target

/-- The adapter with its calls, the policies, the batch that is dispatched, the number of events,
    and what happened. -/
structure Adapter where
  mux : MuxTUN
  policies : Nat → Policy
  batch : List Slot
  calls : Nat → Option MuxCall
  events : Nat
  received : List Returned
  sent : List Passed
  dispatched : List Dispatched

/-- What can happen. -/
inductive MuxEvent where
  | reserve (peer : Addr)
  /-- `Attach` with a policy, or with `nil`. -/
  | attach (call : Nat) (peer : Addr) (policy : Option Nat)
  | bind (call : Nat)
  | read (call : Nat) (device : Option Nat) (args : ReadArgs)
  /-- The argument test of `readPacket` and the first look at `done`. -/
  | probe (call : Nat)
  /-- The second `select`, which takes any branch that is ready. -/
  | select (call : Nat) (fromQueue : Bool)
  /-- `Read` looks at its packet. -/
  | check (call : Nat) (authorization : Option Authorization) (now : Int)
  | write (call : Nat) (device : Option Nat) (bufs : List GoString) (offset : Int)
  /-- `Write` looks at its next packet. -/
  | test (call : Nat) (authorization : Option Authorization) (now : Int)
  /-- The adapter takes the packet, with or without an error. -/
  | pass (call : Nat) (ok : Bool)
  /-- The adapter returns a batch to the dispatcher. -/
  | batch (slots : List Slot)
  | dispatch
  | closePeer (device : Nat)
  | revoke (policy : Nat)
  /-- `close(m.done)`, by `Close` or by the dispatcher. -/
  | signalClose
  | stopPeers

/-- A call goes on. -/
def Adapter.goto (m : Adapter) (c : Nat) (call : MuxCall) (progress : Progress) : Adapter :=
  { m with calls := Function.update m.calls c (some { call with progress }) }

/-- A call starts. -/
def Adapter.begin (m : Adapter) (c : Nat) (progress : Progress) : Adapter :=
  match m.calls c with
  | some _ => m
  | none => m.goto c ⟨m.events, progress⟩ progress

/-- The call of `Attach` up to the return of `Reserve`. -/
def Adapter.attach (m : Adapter) (c : Nat) (peer : Addr) (policy : Option Nat) : Adapter :=
  match policy with
  | none => m
  | some k =>
    match m.mux.reserve peer with
    | .error _ => m
    | .ok mux => { m with mux }.begin c (.attaching peer k)

/-- The rest of `Attach`. -/
def Adapter.bind (m : Adapter) (c : Nat) : Adapter :=
  match m.calls c with
  | some call@⟨_, .attaching peer k⟩ =>
    match m.mux.bind peer k (m.policies k).session.grant (m.policies k).side with
    | .error _ => m.goto c call .returned
    | .ok mux => { m with mux }.goto c call .returned
  | _ => m

/-- `readPacket` up to its second `select`. -/
def Adapter.probe (m : Adapter) (c : Nat) : Adapter :=
  match m.calls c with
  | some call@⟨_, .reading device args⟩ =>
    if args.short || m.mux.closed device then m.goto c call .returned
    else m.goto c call (.selecting device args)
  | _ => m

/-- The second `select` of `readPacket`. -/
def Adapter.select (m : Adapter) (c : Nat) (fromQueue : Bool) : Adapter :=
  match m.calls c with
  | some call@⟨_, .selecting device args⟩ =>
    if fromQueue then
      match m.mux.queue device with
      | [] => m
      | p :: rest =>
        let m' : Adapter := { m with mux := m.mux.setQueue device rest }
        match args.copy p with
        | none => m'.goto c call .returned
        | some args' => m'.goto c call (.holding device args')
    else if m.mux.closed device then m.goto c call .returned
    else m
  | _ => m

/-- The filter around a device. -/
def Adapter.filter (m : Adapter) (d : Nat) (packet : GoString) (outbound : Bool)
    (authorization : Option Authorization) (now : Int) : Adapter × Bool :=
  match m.mux.devices d with
  | none => (m, false)
  | some dev =>
    let result := (m.policies dev.policy).allowed authorization packet outbound now
    ({ m with policies := Function.update m.policies dev.policy result.1 }, result.2)

/-- `Read` returns its packet. -/
def Adapter.receive (m : Adapter) (c : Nat) (call : MuxCall) (device : Option Nat)
    (packet : GoString) : Adapter :=
  { m.goto c call .returned with received := ⟨call.started, device, packet⟩ :: m.received }

/-- `MuxTUN.Read` and `FilterTUN.Read` after a packet was read. -/
def Adapter.check (m : Adapter) (c : Nat) (authorization : Option Authorization) (now : Int) :
    Adapter :=
  match m.calls c with
  | some call@⟨_, .holding none args⟩ =>
    if (m.mux.destination args.packet).isSome then m.goto c call (.reading none args)
    else m.receive c call none args.packet
  | some call@⟨_, .holding (some d) args⟩ =>
    let result := m.filter d args.packet true authorization now
    if result.2 then result.1.receive c call (some d) args.packet
    else result.1.goto c call (.reading (some d) args)
  | _ => m

/-- The three `Write`s up to the adapter. -/
def Adapter.test (m : Adapter) (c : Nat) (authorization : Option Authorization) (now : Int) :
    Adapter :=
  match m.calls c with
  | some call@⟨_, .writing _ [] _⟩ => m.goto c call .returned
  | some call@⟨_, .writing none (b :: bufs) offset⟩ =>
    if offset < 0 ∨ (b.length : Int) < offset then m.goto c call .returned
    else if (m.mux.source (b.drop offset.toNat)).isSome then
      m.goto c call (.writing none bufs offset)
    else m.goto c call (.passing none b bufs offset)
  | some call@⟨_, .writing (some d) (b :: bufs) offset⟩ =>
    if offset < 0 ∨ (b.length : Int) < offset then m.goto c call (.writing (some d) bufs offset)
    else
      let result := m.filter d (b.drop offset.toNat) false authorization now
      if !result.2 then result.1.goto c call (.writing (some d) bufs offset)
      else if m.mux.closed (some d) then result.1.goto c call .returned
      else result.1.goto c call (.passing (some d) b bufs offset)
  | _ => m

/-- `Write` of the adapter. -/
def Adapter.pass (m : Adapter) (c : Nat) (ok : Bool) : Adapter :=
  match m.calls c with
  | some call@⟨started, .passing device b bufs offset⟩ =>
    let next := if ok then .writing device bufs offset else .returned
    { m.goto c call next with sent := ⟨started, device, b.drop offset.toNat⟩ :: m.sent }
  | _ => m

/-- The dispatcher takes the next slot of its batch. -/
def Adapter.dispatch (m : Adapter) : Adapter :=
  match m.batch with
  | [] => m
  | slot :: batch =>
    match slot.packet with
    | none => { m with batch }
    | some packet => { m with
        batch
        mux := m.mux.deliver packet
        dispatched := ⟨m.events, packet, m.mux.target packet⟩ :: m.dispatched }

/-- What an event does. -/
def Adapter.effect (m : Adapter) : MuxEvent → Adapter
  | .reserve peer =>
    match m.mux.reserve peer with
    | .error _ => m
    | .ok mux => { m with mux }
  | .attach c peer policy => m.attach c peer policy
  | .bind c => m.bind c
  | .read c device args => m.begin c (.reading device args)
  | .probe c => m.probe c
  | .select c fromQueue => m.select c fromQueue
  | .check c authorization now => m.check c authorization now
  | .write c device bufs offset => m.begin c (.writing device bufs offset)
  | .test c authorization now => m.test c authorization now
  | .pass c ok => m.pass c ok
  | .batch slots => if m.batch.isEmpty then { m with batch := slots } else m
  | .dispatch => m.dispatch
  | .closePeer d => { m with mux := m.mux.closePeer d }
  | .revoke k =>
    { m with policies := Function.update m.policies k (m.policies k).revoke }
  | .signalClose => { m with mux := { m.mux with done := true } }
  | .stopPeers => if m.mux.done then { m with mux := m.mux.stopPeers } else m

/-- One event, counted. -/
def Adapter.step (m : Adapter) (event : MuxEvent) : Adapter :=
  { m.effect event with events := m.events + 1 }

/-- A run. -/
def Adapter.run (m : Adapter) (events : List MuxEvent) : Adapter := events.foldl step m

/-- A new adapter. -/
def Adapter.start (policies : Nat → Policy) : Adapter :=
  { mux := newMuxTUN, policies, batch := [], calls := fun _ => none, events := 0, received := []
    sent := [], dispatched := [] }

/-! ## What is read out of the buffers -/

theorem ReadArgs.packet_copy {a a' : ReadArgs} {p : GoString} (h : a.copy p = some a')
    (hoffset : 0 ≤ a.offset) : a'.packet = p := by
  obtain ⟨bufs, sizes, offset⟩ := a
  unfold copy at h
  split at h
  · split at h
    · cases h
    next b rest x xs _ _ hfits =>
    cases h
    dsimp only at hoffset hfits
    have hlength : (b.take offset.toNat).length = offset.toNat := by
      rw [List.length_take]
      omega
    show ((b.take offset.toNat ++ p ++ b.drop (offset.toNat + p.length)).drop offset.toNat).take
      (p.length : Int).toNat = p
    rw [List.append_assoc, List.drop_append_of_le_length (le_of_eq hlength.symm),
      List.drop_eq_nil_of_le (le_of_eq hlength), List.nil_append, Int.toNat_natCast,
      List.take_left]
  · cases h

end Bpc.P2P
