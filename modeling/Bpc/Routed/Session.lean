/-
  ROUTED SESSIONS — one mesh link between two Nodes that restart, over a hostile network.

  1. **Program** — the receive loop runs beside the probe ticker and the senders, so a body with
     two lock sections is TWO steps (`Receiving`).  Of the shared `pending` map only this peer's
     entries matter.
  2. **System** — an `End` is one side of the link over all its incarnations.  Authenticated
     encryption is ideal: an end opens exactly what the other end sealed, as often as the network
     likes.
-/
import Bpc.Lib.SlashPath
import Bpc.Routed.Window

namespace Bpc.Routed

open Bpc.SlashPath (Str)

/-! ## Datagrams -/

/-- `[16]byte`; zero stands for "no epoch installed". -/
abbrev Epoch := BitVec 128

/-- The 32 bytes of a probe: the prober's epoch, then 16 random bytes. -/
structure Token where
  epoch : Epoch
  nonce : BitVec 128
  deriving Repr, DecidableEq

/-- `localEpoch ‖ remoteEpoch ‖ sequence ‖ payload`. -/
structure DataEnvelope where
  source : Epoch
  destination : Epoch
  sequence : UInt64
  payload : List UInt8
  deriving Repr, DecidableEq

/-- All but the payload. -/
def DataEnvelope.header (d : DataEnvelope) : Epoch × Epoch × UInt64 :=
  (d.source, d.destination, d.sequence)

/-- What an end seals. -/
inductive Datagram where
  | probe (token : Token)
  | probeReply (token : Token) (epoch : Epoch)
  | data (envelope : DataEnvelope)
  deriving Repr, DecidableEq

/-! ## One peer record -/

/-- The session part of `meshPeer`. -/
structure MeshPeer where
  localEpoch : Epoch
  remoteEpoch : Epoch
  recv : Window
  sendSeq : UInt64
  deriving Repr, DecidableEq

/-- `makePeer`, with the epoch it draws. -/
def makePeer (localEpoch : Epoch) : MeshPeer := ⟨localEpoch, 0, .fresh, 0⟩

/-- `matchesRemoteEpoch`. -/
def MeshPeer.matchesRemoteEpoch (p : MeshPeer) (epoch : Epoch) : Bool := p.remoteEpoch = epoch

/-- Installing a DIFFERENT epoch forgets the replay window. -/
def MeshPeer.confirmRemoteEpoch (p : MeshPeer) (epoch : Epoch) : MeshPeer :=
  if p.remoteEpoch = epoch then p else { p with remoteEpoch := epoch, recv := .fresh }

/-- The errors of `dataEnvelope`. -/
inductive EnvelopeError where
  /-- "routed session is not authenticated yet" -/
  | notAuthenticated
  /-- "routed sequence exhausted" -/
  | sequenceExhausted
  deriving Repr, DecidableEq

/-- `dataEnvelope`; the counter is consumed even when it has wrapped. -/
def MeshPeer.dataEnvelope (p : MeshPeer) (payload : List UInt8) :
    MeshPeer × Except EnvelopeError DataEnvelope :=
  if p.remoteEpoch = 0 then (p, .error .notAuthenticated)
  else
    let sequence := p.sendSeq + 1
    let p' := { p with sendSeq := sequence }
    if sequence = 0 then (p', .error .sequenceExhausted)
    else (p', .ok ⟨p.localEpoch, p.remoteEpoch, sequence, payload⟩)

/-- `acceptDataEnvelope`; `none` is the refusal, which changes nothing. -/
def MeshPeer.acceptDataEnvelope (p : MeshPeer) (d : DataEnvelope) :
    Option (MeshPeer × List UInt8) :=
  if d.payload = [] then none
  else if p.remoteEpoch = 0 ∨ d.source ≠ p.remoteEpoch ∨ d.destination ≠ p.localEpoch then none
  else (p.recv.acceptSequence d.sequence).map fun w => ({ p with recv := w }, d.payload)

/-! ## One process -/

/-- The token, and the address whose answer counts. -/
structure PendingProbe where
  token : Token
  endpoint : Str
  deriving Repr, DecidableEq

/-- Reading the socket, after the answer to a probe, or after a matched reply. -/
inductive Receiving where
  | reading
  | answered (epoch : Epoch) (addr : Str)
  | matched (epoch : Epoch) (addr : Str)
  deriving Repr, DecidableEq

/-- One incarnation of a Node, as far as this link goes. -/
structure Process where
  peer : MeshPeer
  address : Option Str
  pending : List PendingProbe
  receiving : Receiving
  deriving Repr, DecidableEq

/-- A new process. -/
def Process.start (epoch : Epoch) : Process := ⟨makePeer epoch, none, [], .reading⟩

/-- `sendProbeTo`; at most one probe to a peer is outstanding. -/
def Process.sendProbeTo (p : Process) (addr : Str) (token : Token) : Process × List Datagram :=
  if p.pending ≠ [] then (p, [])
  else ({ p with pending := [⟨token, addr⟩] }, [.probe token])

/-- `delete(m.pending, token)`. -/
def Process.dropProbe (p : Process) (token : Token) : Process :=
  { p with pending := p.pending.filter fun q => q.token ≠ token }

/-- `Send`; without a session nothing leaves. -/
def Process.send (p : Process) (payload : List UInt8) : Process × List Datagram :=
  match p.address with
  | none => (p, [])
  | some _ =>
    match p.peer.dataEnvelope payload with
    | (peer, .error _) => ({ p with peer := peer }, [])
    | (peer, .ok envelope) => ({ p with peer := peer }, [.data envelope])

/-- The process, the datagrams it seals, the envelope it hands over. -/
structure Received where
  process : Process
  sent : List Datagram
  handed : Option DataEnvelope

/-- The receive loop on an opened datagram that came from `addr`. -/
def Process.receive (p : Process) (addr : Str) : Datagram → Received
  | .probe token =>
    ⟨{ p with receiving := .answered token.epoch addr },
      [.probeReply token p.peer.localEpoch], none⟩
  | .probeReply token epoch =>
    if p.pending.any fun q => q.token = token ∧ q.endpoint = addr then
      ⟨{ p.dropProbe token with receiving := .matched epoch addr }, [], none⟩
    else ⟨p, [], none⟩
  | .data envelope =>
    match p.peer.acceptDataEnvelope envelope with
    | none => ⟨p, [], none⟩
    | some (peer, _) => ⟨{ p with peer := peer, address := some addr }, [], some envelope⟩

/-- Must the sender be challenged?  A probe may be a replay. -/
def Process.challenges (p : Process) (epoch : Epoch) (addr : Str) : Bool :=
  !p.peer.matchesRemoteEpoch epoch || p.address ≠ some addr

/-! ## One end of the link, over all its incarnations -/

/-- An envelope with the epoch of the incarnation it reached. -/
structure Handed where
  receiver : Epoch
  envelope : DataEnvelope
  deriving Repr, DecidableEq

/-- One side of a link. -/
structure End where
  /-- The running incarnation. -/
  process : Process
  /-- The epochs of all incarnations, oldest first. -/
  born : List Epoch
  /-- Every token drawn so far. -/
  tokens : List Token
  /-- Every datagram sealed so far, newest first. -/
  sealed : List Datagram
  /-- Every envelope handed to the data handler so far, newest first. -/
  handed : List Handed
  /-- The confirmed epochs, newest first. -/
  confirmed : List Epoch
  deriving Repr, DecidableEq

/-- Its first incarnation. -/
def End.start (epoch : Epoch) : End := ⟨.start epoch, [epoch], [], [], [], []⟩

/-- What an end can do.  `deliver` is the network's choice of a datagram and an address; `proceed`
    is the rest of the loop's body. -/
inductive Action where
  | restart (epoch : Epoch)
  | resolve (addr : Str)
  | tick (nonce : BitVec 128)
  | expire (token : Token)
  | send (payload : List UInt8)
  | deliver (datagram : Datagram) (addr : Str)
  | proceed (nonce : BitVec 128)
  deriving Repr, DecidableEq

/-- `sendProbeTo`; a token is never drawn twice. -/
def End.probe (e : End) (addr : Str) (nonce : BitVec 128) : Option End :=
  let token : Token := ⟨e.process.peer.localEpoch, nonce⟩
  if token ∈ e.tokens then none
  else
    let (process, sent) := e.process.sendProbeTo addr token
    some { e with process := process, tokens := token :: e.tokens, sealed := sent ++ e.sealed }

/-- The second lock section of the receive loop's body. -/
def End.proceed (e : End) (nonce : BitVec 128) : Option End :=
  match e.process.receiving with
  | .reading => none
  | .answered epoch addr =>
    let e' := { e with process := { e.process with receiving := .reading } }
    if e.process.challenges epoch addr then e'.probe addr nonce else some e'
  | .matched epoch addr =>
    some { e with
      process := { e.process with
        peer := e.process.peer.confirmRemoteEpoch epoch, address := some addr,
        receiving := .reading }
      confirmed := epoch :: e.confirmed }

/-- The datagram must have been sealed by the other end. -/
def End.deliver (e : End) (recorded : List Datagram) (d : Datagram) (addr : Str) : Option End :=
  if d ∈ recorded ∧ e.process.receiving = .reading then
    let r := e.process.receive addr d
    some { e with
      process := r.process, sealed := r.sent ++ e.sealed
      handed := (r.handed.map (Handed.mk e.process.peer.localEpoch)).toList ++ e.handed }
  else none

/-- One step of an end; `none` when the action is not possible. -/
def End.act (e : End) (recorded : List Datagram) : Action → Option End
  | .restart epoch =>
    if epoch ∈ e.born then none
    else some { e with process := .start epoch, born := e.born ++ [epoch], confirmed := [] }
  | .resolve addr => some { e with process := { e.process with address := some addr } }
  | .tick nonce =>
    match e.process.address with
    | none => some e
    | some addr => e.probe addr nonce
  | .expire token => some { e with process := e.process.dropProbe token }
  | .send payload =>
    let (process, sent) := e.process.send payload
    some { e with process := process, sealed := sent ++ e.sealed }
  | .deliver d addr => e.deliver recorded d addr
  | .proceed nonce => e.proceed nonce

/-! ## The link -/

/-- A side of a link. -/
inductive Side where
  | left
  | right
  deriving Repr, DecidableEq

/-- The other side. -/
def Side.other : Side → Side
  | .left => .right
  | .right => .left

/-- Two ends. -/
structure Link where
  left : End
  right : End
  deriving Repr, DecidableEq

/-- The end at a side. -/
def Link.side (l : Link) : Side → End
  | .left => l.left
  | .right => l.right

/-- Both ends start. -/
def Link.start (epoch : Side → Epoch) : Link := ⟨.start (epoch .left), .start (epoch .right)⟩

/-- One end acts. -/
def Link.act (l : Link) (s : Side) (a : Action) : Option Link :=
  match s with
  | .left => (l.left.act l.right.sealed a).map fun e => ⟨e, l.right⟩
  | .right => (l.right.act l.left.sealed a).map fun e => ⟨l.left, e⟩

/-- A schedule: which side does what, in which order. -/
def Link.run (l : Link) : List (Side × Action) → Option Link
  | [] => some l
  | (s, a) :: rest => (l.act s a).bind fun l' => l'.run rest

end Bpc.Routed
