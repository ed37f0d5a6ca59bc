/-
  THE STEPS OF AN END, classified: a restart, the match of a reply, its confirmation, a hand-over,
  and everything else, which is `Quiet`.  `effect_of_act` does the case split once.
-/
import Bpc.Routed.Session

namespace Bpc.Routed

/-! ## What one step does -/

/-- The confirmed epochs, with the one about to be. -/
def End.installing (e : End) : List Epoch :=
  match e.process.receiving with
  | .matched epoch _ => epoch :: e.confirmed
  | _ => e.confirmed

/-- A step that leaves the session alone: it draws a token, starts or drops a probe, seals
    datagrams. -/
structure Quiet (recorded : List Datagram) (e e' : End) : Prop where
  born : e'.born = e.born
  localEpoch : e'.process.peer.localEpoch = e.process.peer.localEpoch
  remoteEpoch : e'.process.peer.remoteEpoch = e.process.peer.remoteEpoch
  recv : e'.process.peer.recv = e.process.peer.recv
  handed : e'.handed = e.handed
  confirmed : e'.confirmed = e.confirmed
  installing : e'.installing = e.installing
  tokens : ∀ t ∈ e.tokens, t ∈ e'.tokens
  pending : ∀ q ∈ e'.process.pending, q ∈ e.process.pending ∨
    (q.token ∉ e.tokens ∧ q.token ∈ e'.tokens)
  single : e.process.pending.length ≤ 1 → e'.process.pending.length ≤ 1
  grows : ∀ d ∈ e.sealed, d ∈ e'.sealed
  probes : ∀ t, .probe t ∈ e'.sealed → .probe t ∈ e.sealed ∨ t ∈ e'.tokens
  replies : ∀ t x, .probeReply t x ∈ e'.sealed → .probeReply t x ∈ e.sealed ∨
    (x = e.process.peer.localEpoch ∧ .probe t ∈ recorded)

/-- What an action can do. -/
inductive Effect (recorded : List Datagram) (e : End) : End → Prop where
  | restart {epoch : Epoch} (fresh : epoch ∉ e.born) :
      Effect recorded e
        { e with process := .start epoch, born := e.born ++ [epoch], confirmed := [] }
  | quiet {e' : End} (h : Quiet recorded e e') : Effect recorded e e'
  | matched {q : PendingProbe} {epoch : Epoch} {addr : SlashPath.Str}
      (reading : e.process.receiving = .reading) (asked : q ∈ e.process.pending)
      (answer : .probeReply q.token epoch ∈ recorded) :
      Effect recorded e { e with
        process := { e.process.dropProbe q.token with receiving := .matched epoch addr } }
  | confirmed {epoch : Epoch} {addr : SlashPath.Str}
      (loop : e.process.receiving = .matched epoch addr) :
      Effect recorded e { e with
        process := { e.process with
          peer := e.process.peer.confirmRemoteEpoch epoch, address := some addr,
          receiving := .reading }
        confirmed := epoch :: e.confirmed }
  | handed {d : DataEnvelope} {peer : MeshPeer} {payload : List UInt8} {addr : SlashPath.Str}
      (reading : e.process.receiving = .reading) (known : .data d ∈ recorded)
      (accepted : e.process.peer.acceptDataEnvelope d = some (peer, payload)) :
      Effect recorded e { e with
        process := { e.process with peer := peer, address := some addr }
        handed := ⟨e.process.peer.localEpoch, d⟩ :: e.handed }

variable {e : End}

theorem installing_of_reading (h : e.process.receiving = .reading) :
    e.installing = e.confirmed := by
  unfold End.installing
  rw [h]

theorem installing_of_answered {x : Epoch} {a : SlashPath.Str}
    (h : e.process.receiving = .answered x a) : e.installing = e.confirmed := by
  unfold End.installing
  rw [h]

theorem installing_of_matched {x : Epoch} {a : SlashPath.Str}
    (h : e.process.receiving = .matched x a) : e.installing = x :: e.confirmed := by
  unfold End.installing
  rw [h]

variable {recorded : List Datagram} {e' : End}

theorem Quiet.of_same (born : e'.born = e.born) (peer : e'.process.peer = e.process.peer)
    (handed : e'.handed = e.handed) (confirmed : e'.confirmed = e.confirmed)
    (installing : e'.installing = e.installing) (tokens : e'.tokens = e.tokens)
    (pending : ∀ q ∈ e'.process.pending, q ∈ e.process.pending)
    (single : e'.process.pending.length ≤ e.process.pending.length) (same : e'.sealed = e.sealed) :
    Quiet recorded e e' where
  born := born
  localEpoch := by rw [peer]
  remoteEpoch := by rw [peer]
  recv := by rw [peer]
  handed := handed
  confirmed := confirmed
  installing := installing
  tokens := fun t ht => tokens ▸ ht
  pending := fun q hq => .inl (pending q hq)
  single := fun h => Nat.le_trans single h
  grows := fun d hd => same ▸ hd
  probes := fun t ht => .inl (same ▸ ht)
  replies := fun t x h => .inl (same ▸ h)

theorem Quiet.trans {e'' : End} (h : Quiet recorded e e') (h' : Quiet recorded e' e'') :
    Quiet recorded e e'' where
  born := h'.born.trans h.born
  localEpoch := h'.localEpoch.trans h.localEpoch
  remoteEpoch := h'.remoteEpoch.trans h.remoteEpoch
  recv := h'.recv.trans h.recv
  handed := h'.handed.trans h.handed
  confirmed := h'.confirmed.trans h.confirmed
  installing := h'.installing.trans h.installing
  tokens := fun t ht => h'.tokens t (h.tokens t ht)
  pending := fun q hq => by
    obtain hq | ⟨hnew, hq⟩ := h'.pending q hq
    · obtain hq | ⟨hnew, hq⟩ := h.pending q hq
      · exact .inl hq
      · exact .inr ⟨hnew, h'.tokens _ hq⟩
    · exact .inr ⟨fun hold => hnew (h.tokens _ hold), hq⟩
  single := fun hs => h'.single (h.single hs)
  grows := fun d hd => h'.grows d (h.grows d hd)
  probes := fun t ht => by
    obtain ht | ht := h'.probes t ht
    · exact (h.probes t ht).imp_right (h'.tokens t)
    · exact .inr ht
  replies := fun t x hr => by
    obtain hr | ⟨hx, hp⟩ := h'.replies t x hr
    · exact h.replies t x hr
    · exact .inr ⟨hx.trans h.localEpoch, hp⟩

theorem quiet_of_probe {addr : SlashPath.Str} {nonce : BitVec 128}
    (h : e.probe addr nonce = some e') : Quiet recorded e e' := by
  unfold End.probe at h
  dsimp only at h
  split at h
  · cases h
  rename_i hfresh
  obtain rfl := Option.some.inj h
  unfold Process.sendProbeTo
  by_cases hnone : e.process.pending = []
  · simp only [hnone, ne_eq, not_true_eq_false, if_false]
    exact {
      born := rfl, localEpoch := rfl, remoteEpoch := rfl, recv := rfl, handed := rfl
      confirmed := rfl, installing := rfl
      tokens := fun t ht => List.mem_cons_of_mem _ ht
      pending := fun q hq => by
        obtain rfl := List.mem_singleton.mp hq
        exact .inr ⟨hfresh, List.mem_cons_self⟩
      single := fun _ => Nat.le_refl 1
      grows := fun d hd => List.mem_cons_of_mem _ hd
      probes := fun t ht => by
        obtain ht | ht := List.mem_cons.mp ht
        · obtain rfl := Datagram.probe.inj ht
          exact .inr List.mem_cons_self
        · exact .inl ht
      replies := fun t x hr => by
        obtain hr | hr := List.mem_cons.mp hr
        · cases hr
        · exact .inl hr }
  · simp only [hnone, ne_eq, not_false_eq_true, if_true]
    exact {
      born := rfl, localEpoch := rfl, remoteEpoch := rfl, recv := rfl, handed := rfl
      confirmed := rfl, installing := rfl
      tokens := fun t ht => List.mem_cons_of_mem _ ht
      pending := fun q hq => .inl hq
      single := fun h => h
      grows := fun d hd => hd
      probes := fun t ht => .inl ht
      replies := fun t x hr => .inl hr }

theorem quiet_of_dropProbe (recorded : List Datagram) (e : End) (token : Token) :
    Quiet recorded e { e with process := e.process.dropProbe token } :=
  .of_same rfl rfl rfl rfl rfl rfl (fun _ hq => List.mem_of_mem_filter hq)
    (List.length_filter_le _ _) rfl

theorem quiet_of_data (recorded : List Datagram) (e : End) (n : UInt64)
    (sent : List DataEnvelope) :
    Quiet recorded e { e with
      process := { e.process with peer := { e.process.peer with sendSeq := n } }
      sealed := sent.map .data ++ e.sealed } where
  born := rfl
  localEpoch := rfl
  remoteEpoch := rfl
  recv := rfl
  handed := rfl
  confirmed := rfl
  installing := rfl
  tokens := fun _ ht => ht
  pending := fun _ hq => .inl hq
  single := fun h => h
  grows := fun _ hd => List.mem_append_right _ hd
  probes := fun t ht => by
    obtain ht | ht := List.mem_append.mp ht
    · obtain ⟨_, _, heq⟩ := List.mem_map.mp ht
      cases heq
    · exact .inl ht
  replies := fun t x hr => by
    obtain hr | hr := List.mem_append.mp hr
    · obtain ⟨_, _, heq⟩ := List.mem_map.mp hr
      cases heq
    · exact .inl hr

theorem dataEnvelope_peer (p : MeshPeer) (payload : List UInt8) :
    ∃ n, (p.dataEnvelope payload).1 = { p with sendSeq := n } := by
  unfold MeshPeer.dataEnvelope
  split
  · exact ⟨p.sendSeq, rfl⟩
  · dsimp only
    split
    · exact ⟨p.sendSeq + 1, rfl⟩
    · exact ⟨p.sendSeq + 1, rfl⟩

theorem send_shape (p : Process) (payload : List UInt8) :
    ∃ (n : UInt64) (sent : List DataEnvelope),
      p.send payload = ({ p with peer := { p.peer with sendSeq := n } }, sent.map .data) := by
  obtain ⟨peer, address, pending, receiving⟩ := p
  obtain ⟨n, hn⟩ := dataEnvelope_peer peer payload
  unfold Process.send
  cases address with
  | none => exact ⟨peer.sendSeq, [], rfl⟩
  | some addr =>
    cases hseal : peer.dataEnvelope payload with
    | mk peer' r =>
      obtain rfl : peer' = { peer with sendSeq := n } := by
        rw [← hn, hseal]
      cases r with
      | error e => exact ⟨n, [], rfl⟩
      | ok envelope => exact ⟨n, [envelope], rfl⟩

theorem quiet_of_send (recorded : List Datagram) (e : End) (payload : List UInt8) :
    Quiet recorded e { e with
      process := (e.process.send payload).1, sealed :=
        (e.process.send payload).2 ++ e.sealed } := by
  obtain ⟨n, sent, heq⟩ := send_shape e.process payload
  rw [heq]
  exact quiet_of_data recorded e n sent

theorem quiet_of_answer {token : Token} (addr : SlashPath.Str)
    (reading : e.process.receiving = .reading) (known : .probe token ∈ recorded) :
    Quiet recorded e { e with
      process := { e.process with receiving := .answered token.epoch addr }
      sealed := .probeReply token e.process.peer.localEpoch :: e.sealed } where
  born := rfl
  localEpoch := rfl
  remoteEpoch := rfl
  recv := rfl
  handed := rfl
  confirmed := rfl
  installing := (installing_of_answered rfl).trans (installing_of_reading reading).symm
  tokens := fun _ ht => ht
  pending := fun _ hq => .inl hq
  single := fun h => h
  grows := fun _ hd => List.mem_cons_of_mem _ hd
  probes := fun t ht => by
    obtain ht | ht := List.mem_cons.mp ht
    · cases ht
    · exact .inl ht
  replies := fun t x hr => by
    obtain hr | hr := List.mem_cons.mp hr
    · obtain ⟨rfl, rfl⟩ := Datagram.probeReply.inj hr
      exact .inr ⟨rfl, known⟩
    · exact .inl hr

theorem Quiet.refl (recorded : List Datagram) (e : End) : Quiet recorded e e :=
  .of_same rfl rfl rfl rfl rfl rfl (fun _ hq => hq) (Nat.le_refl _) rfl

theorem effect_of_deliver {d : Datagram} {addr : SlashPath.Str}
    (h : e.deliver recorded d addr = some e') : Effect recorded e e' := by
  unfold End.deliver at h
  split at h
  swap
  · cases h
  rename_i hd
  obtain ⟨known, reading⟩ := hd
  obtain rfl := Option.some.inj h
  cases d with
  | probe token => exact .quiet (quiet_of_answer addr reading known)
  | probeReply token epoch =>
    unfold Process.receive
    by_cases hmatch : e.process.pending.any fun q => q.token = token ∧ q.endpoint = addr
    · simp only [hmatch, if_true]
      obtain ⟨q, hq, heq⟩ := List.any_eq_true.mp hmatch
      obtain ⟨rfl, _⟩ := of_decide_eq_true heq
      exact .matched reading hq known
    · simp only [hmatch, Bool.false_eq_true, if_false]
      exact .quiet (.refl recorded e)
  | data envelope =>
    unfold Process.receive
    cases haccept : e.process.peer.acceptDataEnvelope envelope with
    | none =>
      simp only [haccept]
      exact .quiet (.refl recorded e)
    | some r =>
      obtain ⟨peer, payload⟩ := r
      simp only [haccept]
      exact .handed reading known haccept

theorem effect_of_proceed {nonce : BitVec 128} (h : e.proceed nonce = some e') :
    Effect recorded e e' := by
  unfold End.proceed at h
  cases hloop : e.process.receiving with
  | reading =>
    rw [hloop] at h
    cases h
  | answered epoch addr =>
    rw [hloop] at h
    dsimp only at h
    have hback : Quiet recorded e
        { e with process := { e.process with receiving := .reading } } :=
      .of_same rfl rfl rfl rfl
        ((installing_of_reading rfl).trans (installing_of_answered hloop).symm) rfl
        (fun _ hq => hq) (Nat.le_refl _) rfl
    split at h
    · exact .quiet (hback.trans (quiet_of_probe h))
    · obtain rfl := Option.some.inj h
      exact .quiet hback
  | matched epoch addr =>
    rw [hloop] at h
    obtain rfl := Option.some.inj h
    exact .confirmed hloop

/-- **Every action is one of the five kinds of step.** -/
theorem effect_of_act {a : Action} (h : e.act recorded a = some e') : Effect recorded e e' := by
  cases a with
  | restart epoch =>
    unfold End.act at h
    dsimp only at h
    split at h
    · cases h
    · rename_i hfresh
      obtain rfl := Option.some.inj h
      exact .restart hfresh
  | resolve addr =>
    obtain rfl := Option.some.inj h
    exact .quiet (.of_same rfl rfl rfl rfl rfl rfl (fun _ hq => hq) (Nat.le_refl _) rfl)
  | tick nonce =>
    unfold End.act at h
    dsimp only at h
    split at h
    · obtain rfl := Option.some.inj h
      exact .quiet (.refl recorded e)
    · exact .quiet (quiet_of_probe h)
  | expire token =>
    obtain rfl := Option.some.inj h
    exact .quiet (quiet_of_dropProbe recorded e token)
  | send payload =>
    obtain rfl := Option.some.inj h
    exact .quiet (quiet_of_send recorded e payload)
  | deliver d addr => exact effect_of_deliver h
  | proceed nonce => exact effect_of_proceed h

end Bpc.Routed
