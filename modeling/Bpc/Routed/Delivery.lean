/-
  AT-MOST-ONCE DELIVERY over a mesh link, across restarts of both ends.

  The replay window forgets everything when a different epoch is confirmed.  What protects is the
  ORDER of confirmations: a reply to the one pending probe comes from an incarnation at least as
  young as each one confirmed before (`Paired.answers`), so an epoch that was left is never
  confirmed again.
-/
import Bpc.Routed.Effect

namespace Bpc.Routed

/-! ## The invariants -/

/-- What holds of an end by itself. -/
structure Sound (e : End) : Prop where
  nodup : e.born.Nodup
  current : ∃ older, e.born = older ++ [e.process.peer.localEpoch]
  single : e.process.pending.length ≤ 1
  drawn : ∀ q ∈ e.process.pending, q.token ∈ e.tokens
  probed : ∀ t, .probe t ∈ e.sealed → t ∈ e.tokens

/-- The epochs were confirmed in the order of the incarnations, newest first. -/
def InOrder (born confirmed : List Epoch) : Prop :=
  confirmed.Pairwise fun newer older => born.idxOf older ≤ born.idxOf newer

/-- What the receiver `r` has taken from its peer `p`. -/
structure Paired (r p : End) : Prop where
  /-- A reply answers a drawn probe, with a born epoch. -/
  replies : ∀ t x, .probeReply t x ∈ p.sealed → t ∈ r.tokens ∧ x ∈ p.born
  known : ∀ x ∈ r.installing, x ∈ p.born
  ordered : InOrder p.born r.installing
  /-- A reply to the pending probe names no older incarnation. -/
  answers : ∀ q ∈ r.process.pending, ∀ x, .probeReply q.token x ∈ p.sealed →
    ∀ c ∈ r.installing, p.born.idxOf c ≤ p.born.idxOf x
  remote : r.process.peer.remoteEpoch = r.confirmed.headD 0
  delivered : ∀ h ∈ r.handed, .data h.envelope ∈ p.sealed ∧
    h.envelope.destination = h.receiver ∧ h.receiver ∈ r.born
  /-- Data came from confirmed epochs only, and the window refuses what it took from the present
      one. -/
  windowed : ∀ h ∈ r.handed, h.receiver = r.process.peer.localEpoch →
    h.envelope.source ∈ r.confirmed ∧
    (h.envelope.source = r.process.peer.remoteEpoch →
      r.process.peer.recv.Refuses h.envelope.sequence)
  once : (r.handed.map fun h => h.envelope.header).Nodup

/-! ## Order of incarnations -/

variable {e : End} {x : Epoch}

theorem idxOf_le_current (h : Sound e) (hx : x ∈ e.born) :
    e.born.idxOf x ≤ e.born.idxOf e.process.peer.localEpoch := by
  obtain ⟨older, hborn⟩ := h.current
  have hnodup := h.nodup
  rw [hborn] at hx hnodup ⊢
  have hlast : e.process.peer.localEpoch ∉ older := by
    intro hmem
    exact (List.nodup_append.mp hnodup).2.2 _ hmem _ List.mem_cons_self rfl
  have hidx : (older ++ [e.process.peer.localEpoch]).idxOf e.process.peer.localEpoch =
      older.length := by
    rw [List.idxOf_append_of_notMem hlast, List.idxOf_cons_self, Nat.add_zero]
  have hlt := List.idxOf_lt_length_of_mem hx
  rw [List.length_append, List.length_singleton] at hlt
  omega

theorem current_mem (h : Sound e) : e.process.peer.localEpoch ∈ e.born := by
  obtain ⟨older, hborn⟩ := h.current
  rw [hborn]
  exact List.mem_append_right _ List.mem_cons_self

variable {born : List Epoch}

theorem eq_head_of_ordered {confirmed : List Epoch} {c : Epoch}
    (hknown : ∀ y ∈ x :: c :: confirmed, y ∈ born) (hord : InOrder born (x :: c :: confirmed))
    (hagain : x ∈ c :: confirmed) : x = c := by
  obtain ⟨hx, hrest⟩ := List.pairwise_cons.mp hord
  have hxc : born.idxOf c ≤ born.idxOf x := hx c List.mem_cons_self
  obtain heq | htail := List.mem_cons.mp hagain
  · exact heq
  · have hcx : born.idxOf x ≤ born.idxOf c := (List.pairwise_cons.mp hrest).1 x htail
    exact (List.idxOf_inj (hknown x List.mem_cons_self)).mp (Nat.le_antisymm hcx hxc)

theorem idxOf_append_known {more : List Epoch} (h : x ∈ born) :
    (born ++ more).idxOf x = born.idxOf x := List.idxOf_append_of_mem h

theorem InOrder.append {more confirmed : List Epoch} (hknown : ∀ x ∈ confirmed, x ∈ born)
    (h : InOrder born confirmed) : InOrder (born ++ more) confirmed := by
  refine List.Pairwise.imp_of_mem (fun {a b} ha hb hab => ?_) h
  rw [idxOf_append_known (hknown a ha), idxOf_append_known (hknown b hb)]
  exact hab

/-! ## One step keeps an end sound -/

theorem sound_start (epoch : Epoch) : Sound (End.start epoch) where
  nodup := List.nodup_singleton epoch
  current := ⟨[], rfl⟩
  single := Nat.zero_le 1
  drawn := fun _ hq => by cases hq
  probed := fun _ ht => by cases ht

theorem confirmRemoteEpoch_localEpoch (p : MeshPeer) (x : Epoch) :
    (p.confirmRemoteEpoch x).localEpoch = p.localEpoch := by
  unfold MeshPeer.confirmRemoteEpoch
  split
  · rfl
  · rfl

theorem confirmRemoteEpoch_remoteEpoch (p : MeshPeer) (x : Epoch) :
    (p.confirmRemoteEpoch x).remoteEpoch = x := by
  unfold MeshPeer.confirmRemoteEpoch
  split
  · assumption
  · rfl

theorem accept_inv {p p' : MeshPeer} {d : DataEnvelope} {payload : List UInt8}
    (h : p.acceptDataEnvelope d = some (p', payload)) :
    p.remoteEpoch ≠ 0 ∧ d.source = p.remoteEpoch ∧ d.destination = p.localEpoch ∧
    ∃ w, p.recv.acceptSequence d.sequence = some w ∧ p' = { p with recv := w } := by
  unfold MeshPeer.acceptDataEnvelope at h
  split at h
  · cases h
  split at h
  · cases h
  rename_i hkeys
  have hready : p.remoteEpoch ≠ 0 := fun hz => hkeys (.inl hz)
  have hsource : d.source = p.remoteEpoch := by_contra fun hs => hkeys (.inr (.inl hs))
  have hdest : d.destination = p.localEpoch := by_contra fun hs => hkeys (.inr (.inr hs))
  obtain ⟨w, hw, heq⟩ := Option.map_eq_some_iff.mp h
  exact ⟨hready, hsource, hdest, w, hw, (Prod.mk.inj heq).1.symm⟩

theorem Sound.step {recorded : List Datagram} {e' : End} (h : Sound e)
    (hstep : Effect recorded e e') : Sound e' := by
  cases hstep with
  | restart fresh =>
    exact {
      nodup := by
        refine List.nodup_append.mpr ⟨h.nodup, List.nodup_singleton _, fun a ha b hb hab => ?_⟩
        rw [List.mem_singleton.mp hb] at hab
        exact fresh (hab ▸ ha)
      current := ⟨e.born, rfl⟩
      single := Nat.zero_le 1
      drawn := fun _ hq => by cases hq
      probed := h.probed }
  | quiet hq =>
    exact {
      nodup := hq.born ▸ h.nodup
      current := by rw [hq.born, hq.localEpoch]; exact h.current
      single := hq.single h.single
      drawn := fun q hmem => by
        obtain hold | ⟨_, hnew⟩ := hq.pending q hmem
        · exact hq.tokens _ (h.drawn q hold)
        · exact hnew
      probed := fun t ht => by
        obtain hold | hnew := hq.probes t ht
        · exact hq.tokens _ (h.probed t hold)
        · exact hnew }
  | matched reading asked answer =>
    exact {
      nodup := h.nodup
      current := h.current
      single := Nat.le_trans (List.length_filter_le _ _) h.single
      drawn := fun q hq => h.drawn q (List.mem_of_mem_filter hq)
      probed := h.probed }
  | confirmed loop =>
    exact {
      nodup := h.nodup
      current := by rw [confirmRemoteEpoch_localEpoch]; exact h.current
      single := h.single
      drawn := h.drawn
      probed := h.probed }
  | handed reading known accepted =>
    obtain ⟨_, _, _, w, _, rfl⟩ := accept_inv accepted
    exact {
      nodup := h.nodup
      current := h.current
      single := h.single
      drawn := h.drawn
      probed := h.probed }

/-! ## One step of the receiver -/

theorem paired_start (x y : Epoch) : Paired (End.start x) (End.start y) where
  replies := fun _ _ h => by cases h
  known := fun _ h => by cases h
  ordered := List.Pairwise.nil
  answers := fun _ h => by cases h
  remote := rfl
  delivered := fun _ h => by cases h
  windowed := fun _ h => by cases h
  once := List.nodup_nil

variable {r p : End} {epoch : Epoch}

theorem Paired.restarted (h : Paired r p) (fresh : epoch ∉ r.born) :
    Paired { r with process := .start epoch, born := r.born ++ [epoch], confirmed := [] } p where
  replies := h.replies
  known := fun _ hx => by cases hx
  ordered := List.Pairwise.nil
  answers := fun _ hq => by cases hq
  remote := rfl
  delivered := fun d hd =>
    have ⟨hsealed, hdest, hborn⟩ := h.delivered d hd
    ⟨hsealed, hdest, List.mem_append_left _ hborn⟩
  windowed := fun d hd hcur => by
    have hepoch : d.receiver = epoch := hcur
    exact absurd (hepoch ▸ (h.delivered d hd).2.2) fresh
  once := h.once

theorem Paired.receiver_quiet {r' : End} (h : Paired r p) (hq : Quiet p.sealed r r') :
    Paired r' p where
  replies := fun t x ht =>
    have ⟨hdrawn, hborn⟩ := h.replies t x ht
    ⟨hq.tokens t hdrawn, hborn⟩
  known := hq.installing ▸ h.known
  ordered := hq.installing ▸ h.ordered
  answers := fun q hmem x hreply c hc => by
    rw [hq.installing] at hc
    obtain hold | ⟨hfresh, _⟩ := hq.pending q hmem
    · exact h.answers q hold x hreply c hc
    · exact absurd (h.replies q.token x hreply).1 hfresh
  remote := by rw [hq.remoteEpoch, hq.confirmed]; exact h.remote
  delivered := by rw [hq.handed, hq.born]; exact h.delivered
  windowed := by
    rw [hq.handed, hq.localEpoch, hq.remoteEpoch, hq.recv, hq.confirmed]
    exact h.windowed
  once := by rw [hq.handed]; exact h.once

theorem dropProbe_pending {p : Process} {q : PendingProbe} (hsingle : p.pending.length ≤ 1)
    (hq : q ∈ p.pending) : (p.dropProbe q.token).pending = [] := by
  have hpend : p.pending = [q] := by
    obtain ⟨a, heq⟩ := List.length_eq_one_iff.mp
      (Nat.le_antisymm hsingle (List.length_pos_of_mem hq))
    rw [heq] at hq ⊢
    rw [List.mem_singleton.mp hq]
  show p.pending.filter (fun q' => q'.token ≠ q.token) = []
  rw [hpend]
  simp

variable {addr : SlashPath.Str}

/-- **Matching a reply**: its epoch is no older than those confirmed, and the probe is gone. -/
theorem Paired.matched (hr : Sound r) (h : Paired r p) {q : PendingProbe}
    (reading : r.process.receiving = .reading) (asked : q ∈ r.process.pending)
    (answer : .probeReply q.token epoch ∈ p.sealed) :
    Paired { r with
      process := { r.process.dropProbe q.token with receiving := .matched epoch addr } } p where
  replies := h.replies
  known := fun x hx => by
    obtain rfl | hx := List.mem_cons.mp hx
    · exact (h.replies _ _ answer).2
    · exact h.known x (by rw [installing_of_reading reading]; exact hx)
  ordered := by
    refine List.pairwise_cons.mpr ⟨fun c hc => ?_, ?_⟩
    · exact h.answers q asked epoch answer c (by rw [installing_of_reading reading]; exact hc)
    · rw [← installing_of_reading reading]
      exact h.ordered
  answers := fun q' hq' => by
    have hnone : q' ∈ (r.process.dropProbe q.token).pending := hq'
    rw [dropProbe_pending hr.single asked] at hnone
    cases hnone
  remote := h.remote
  delivered := h.delivered
  windowed := h.windowed
  once := h.once

/-- **Confirming**: nothing was taken under the new epoch before. -/
theorem Paired.confirm (h : Paired r p) (loop : r.process.receiving = .matched epoch addr) :
    Paired { r with
      process := { r.process with
        peer := r.process.peer.confirmRemoteEpoch epoch, address := some addr,
        receiving := .reading }
      confirmed := epoch :: r.confirmed } p := by
  have hinst : r.installing = epoch :: r.confirmed := installing_of_matched loop
  exact {
    replies := h.replies
    known := hinst ▸ h.known
    ordered := hinst ▸ h.ordered
    answers := fun q hq x hx c hc => h.answers q hq x hx c (by rw [hinst]; exact hc)
    remote := confirmRemoteEpoch_remoteEpoch _ _
    delivered := h.delivered
    windowed := fun d hd hcur => by
      rw [confirmRemoteEpoch_localEpoch] at hcur
      rw [confirmRemoteEpoch_remoteEpoch]
      obtain ⟨hconf, hrefuses⟩ := h.windowed d hd hcur
      refine ⟨List.mem_cons_of_mem _ hconf, fun hsource => ?_⟩
      -- an epoch confirmed before and confirmed again now is the present one
      have hsame : r.process.peer.remoteEpoch = epoch := by
        have hremote := h.remote
        have hknown := hinst ▸ h.known
        have hord := hinst ▸ h.ordered
        rw [hsource] at hconf
        cases hlist : r.confirmed with
        | nil => rw [hlist] at hconf; cases hconf
        | cons c rest =>
          rw [hlist] at hconf hremote hknown hord
          rw [hremote]
          exact (eq_head_of_ordered hknown hord hconf).symm
      unfold MeshPeer.confirmRemoteEpoch
      rw [if_pos hsame]
      exact hrefuses (hsource.trans hsame.symm)
    once := h.once }

/-- **Handing over**: the number was not taken under this epoch, and other incarnations took other
    destinations. -/
theorem Paired.hand (hr : Sound r) (h : Paired r p) {d : DataEnvelope} {peer : MeshPeer}
    {payload : List UInt8} (known : .data d ∈ p.sealed)
    (accepted : r.process.peer.acceptDataEnvelope d = some (peer, payload)) :
    Paired { r with
      process := { r.process with peer := peer, address := some addr }
      handed := ⟨r.process.peer.localEpoch, d⟩ :: r.handed } p := by
  obtain ⟨hready, hsource, hdest, w, hw, rfl⟩ := accept_inv accepted
  have hcurrent : r.process.peer.localEpoch ∈ r.born := current_mem hr
  have hconfirmed : r.process.peer.remoteEpoch ∈ r.confirmed := by
    have hremote := h.remote
    cases hlist : r.confirmed with
    | nil => rw [hlist] at hremote; exact absurd hremote hready
    | cons c rest => rw [hlist] at hremote; rw [hremote]; exact List.mem_cons_self
  exact {
    replies := h.replies
    known := h.known
    ordered := h.ordered
    answers := h.answers
    remote := h.remote
    delivered := fun x hx => by
      obtain rfl | hx := List.mem_cons.mp hx
      · exact ⟨known, hdest, hcurrent⟩
      · exact h.delivered x hx
    windowed := fun x hx hcur => by
      obtain rfl | hx := List.mem_cons.mp hx
      · exact ⟨hsource ▸ hconfirmed, fun _ => refuses_of_accept hw⟩
      · obtain ⟨hconf, hrefuses⟩ := h.windowed x hx hcur
        exact ⟨hconf, fun hsrc => refuses_keeps hw (hrefuses hsrc)⟩
    once := by
      refine List.nodup_cons.mpr ⟨fun hmem => ?_, h.once⟩
      obtain ⟨x, hx, hheader⟩ := List.mem_map.mp hmem
      obtain ⟨hxs, hxd, hxn⟩ : x.envelope.source = d.source ∧
          x.envelope.destination = d.destination ∧ x.envelope.sequence = d.sequence := by
        simpa [DataEnvelope.header] using hheader
      have hcur : x.receiver = r.process.peer.localEpoch := by
        rw [← (h.delivered x hx).2.1, hxd, hdest]
      have hrefuses := (h.windowed x hx hcur).2 (hxs.trans hsource)
      rw [hxn] at hrefuses
      cases hw.symm.trans hrefuses }

theorem Paired.receiver {r' : End} (hr : Sound r) (h : Paired r p) (hstep : Effect p.sealed r r') :
    Paired r' p := by
  cases hstep with
  | restart fresh => exact h.restarted fresh
  | quiet hq => exact h.receiver_quiet hq
  | matched reading asked answer => exact h.matched hr reading asked answer
  | confirmed loop => exact h.confirm loop
  | handed reading known accepted => exact h.hand hr known accepted

/-! ## One step of the peer -/

/-- What the receiver can see of a peer's step: new incarnations, and replies with the youngest
    epoch. -/
theorem Paired.peer_of_growth {p' : End} (hr : Sound r) (hp : Sound p) (h : Paired r p)
    (more : List Epoch) (hborn : p'.born = p.born ++ more) (hgrows : ∀ d ∈ p.sealed, d ∈ p'.sealed)
    (hreplies : ∀ t x, .probeReply t x ∈ p'.sealed → .probeReply t x ∈ p.sealed ∨
      (x = p.process.peer.localEpoch ∧ .probe t ∈ r.sealed)) : Paired r p' := by
  have hidx : ∀ x ∈ p.born, p'.born.idxOf x = p.born.idxOf x := fun x hx => by
    rw [hborn]
    exact idxOf_append_known hx
  exact {
    replies := fun t x ht => by
      rw [hborn]
      obtain hold | ⟨rfl, hprobe⟩ := hreplies t x ht
      · have hboth := h.replies t x hold
        exact ⟨hboth.1, List.mem_append_left _ hboth.2⟩
      · exact ⟨hr.probed t hprobe, List.mem_append_left _ (current_mem hp)⟩
    known := fun x hx => by
      rw [hborn]
      exact List.mem_append_left _ (h.known x hx)
    ordered := by
      rw [hborn]
      exact h.ordered.append h.known
    answers := fun q hq x hx c hc => by
      rw [hidx c (h.known c hc)]
      obtain hold | ⟨rfl, _⟩ := hreplies q.token x hx
      · rw [hidx x (h.replies _ _ hold).2]
        exact h.answers q hq x hold c hc
      · rw [hidx _ (current_mem hp)]
        exact idxOf_le_current hp (h.known c hc)
    remote := h.remote
    delivered := fun d hd =>
      have ⟨hsealed, hrest⟩ := h.delivered d hd
      ⟨hgrows _ hsealed, hrest⟩
    windowed := h.windowed
    once := h.once }

theorem Paired.peer {p' : End} (hr : Sound r) (hp : Sound p) (h : Paired r p)
    (hstep : Effect r.sealed p p') : Paired r p' := by
  cases hstep with
  | restart fresh => exact h.peer_of_growth hr hp [_] rfl (fun _ hd => hd) fun _ _ => .inl
  | quiet hq =>
    exact h.peer_of_growth hr hp [] (by rw [hq.born, List.append_nil]) hq.grows hq.replies
  | matched reading asked answer =>
    exact h.peer_of_growth hr hp [] (List.append_nil _).symm (fun _ hd => hd) fun _ _ => .inl
  | confirmed loop =>
    exact h.peer_of_growth hr hp [] (List.append_nil _).symm (fun _ hd => hd) fun _ _ => .inl
  | handed reading known accepted =>
    exact h.peer_of_growth hr hp [] (List.append_nil _).symm (fun _ hd => hd) fun _ _ => .inl

/-! ## Whole schedules -/

/-- Both ends are sound, and each is paired with the other. -/
structure Link.Good (l : Link) : Prop where
  sound : ∀ s, Sound (l.side s)
  paired : ∀ s, Paired (l.side s) (l.side s.other)

theorem good_start (epoch : Side → Epoch) : (Link.start epoch).Good where
  sound := fun s => by cases s <;> exact sound_start _
  paired := fun s => by cases s <;> exact paired_start _ _

theorem Link.Good.act {l l' : Link} (h : l.Good) {s : Side} {a : Action}
    (hact : l.act s a = some l') : l'.Good := by
  cases s with
  | left =>
    obtain ⟨e, he, rfl⟩ := Option.map_eq_some_iff.mp hact
    have heffect := effect_of_act he
    have hl : Sound l.left := h.sound .left
    have hr : Sound l.right := h.sound .right
    exact {
      sound := fun s => by
        cases s with
        | left => exact hl.step heffect
        | right => exact hr
      paired := fun s => by
        cases s with
        | left => exact (h.paired .left).receiver hl heffect
        | right => exact (h.paired .right).peer hr hl heffect }
  | right =>
    obtain ⟨e, he, rfl⟩ := Option.map_eq_some_iff.mp hact
    have heffect := effect_of_act he
    have hl : Sound l.left := h.sound .left
    have hr : Sound l.right := h.sound .right
    exact {
      sound := fun s => by
        cases s with
        | left => exact hl
        | right => exact hr.step heffect
      paired := fun s => by
        cases s with
        | left => exact (h.paired .left).peer hl hr heffect
        | right => exact (h.paired .right).receiver hr heffect }

theorem Link.Good.run {l l' : Link} (h : l.Good) {schedule : List (Side × Action)}
    (hrun : l.run schedule = some l') : l'.Good := by
  induction schedule generalizing l with
  | nil =>
    obtain rfl := Option.some.inj hrun
    exact h
  | cons move rest ih =>
    obtain ⟨s, a⟩ := move
    obtain ⟨m, hm, hrest⟩ := Option.bind_eq_some_iff.mp hrun
    exact ih (h.act hm) hrest

/-- **Mesh data is delivered at most once across restarts.**  After any schedule, at either side:
    no envelope header occurs twice among all that all incarnations handed over; each was sealed by
    the peer, for the incarnation that received it; and the confirmed epochs follow the order in
    which the peer's incarnations were born. -/
theorem data_delivered_at_most_once (epoch : Side → Epoch) (schedule : List (Side × Action))
    (l : Link) (hrun : (Link.start epoch).run schedule = some l) (s : Side) :
    ((l.side s).handed.map fun h => h.envelope.header).Nodup ∧
    (∀ h ∈ (l.side s).handed,
      .data h.envelope ∈ (l.side s.other).sealed ∧ h.envelope.destination = h.receiver) ∧
    ((l.side s).process.peer.remoteEpoch = (l.side s).confirmed.headD 0 ∧
      (l.side s.other).born.Nodup ∧
      (∀ x ∈ (l.side s).confirmed, x ∈ (l.side s.other).born) ∧
      (l.side s).confirmed.Pairwise fun newer older =>
        (l.side s.other).born.idxOf older ≤ (l.side s.other).born.idxOf newer) := by
  have hgood := (good_start epoch).run hrun
  have hpair := hgood.paired s
  have hsub : ((l.side s).confirmed).Sublist (l.side s).installing := by
    unfold End.installing
    split
    · exact List.sublist_cons_self _ _
    · exact List.Sublist.refl _
  refine ⟨hpair.once, fun h hh => ?_, hpair.remote, (hgood.sound s.other).nodup, ?_, ?_⟩
  · obtain ⟨hsealed, hdest, _⟩ := hpair.delivered h hh
    exact ⟨hsealed, hdest⟩
  · intro x hx
    exact hpair.known x (hsub.subset hx)
  · exact hpair.ordered.sublist hsub

/-! ## A run with both ends restarting

    The left Node sends one payload, restarts, sends it again with the same sequence number; then
    the right Node restarts.  Every recorded envelope is replayed after each of these. -/

/-- The first epochs. -/
def firstEpochs : Side → Epoch
  | .left => 1
  | .right => 2

/-- The left Node probes, is challenged, and answers. -/
def handshake (left right : Epoch) (nonce : BitVec 128) : List (Side × Action) :=
  [(.left, .resolve "R"), (.left, .tick nonce),
   (.right, .deliver (.probe ⟨left, nonce⟩) "L"), (.right, .proceed nonce),
   (.left, .deliver (.probeReply ⟨left, nonce⟩ right) "R"), (.left, .proceed 0),
   (.left, .deliver (.probe ⟨right, nonce⟩) "R"), (.left, .proceed 0),
   (.right, .deliver (.probeReply ⟨right, nonce⟩ left) "L"), (.right, .proceed 0)]

/-- An envelope of the first incarnation. -/
def firstSent : Datagram := .data ⟨1, 2, 1, [42]⟩

/-- The same payload, of the second one. -/
def secondSent : Datagram := .data ⟨3, 2, 1, [42]⟩

/-- Both envelopes once more. -/
def replays : List (Side × Action) :=
  [(.right, .deliver firstSent "L"), (.right, .deliver secondSent "L")]

/-- Data, a replay, a restart, data. -/
def restarts : List (Side × Action) :=
  handshake 1 2 7 ++ [(.left, .send [42]), (.right, .deliver firstSent "L")] ++
  [(.right, .deliver firstSent "M"), (.left, .restart 3)] ++
  handshake 3 2 8 ++ [(.left, .send [42])] ++ replays ++ replays ++
  [(.right, .restart 4)] ++ replays

/-- The link after that. -/
def restarted : Link := ((Link.start firstEpochs).run restarts).getD (.start firstEpochs)

/-- One payload of two processes arrives twice, under two headers. -/
theorem data_delivered_restarted :
    (restarted.side .right).handed = [⟨2, ⟨3, 2, 1, [42]⟩⟩, ⟨2, ⟨1, 2, 1, [42]⟩⟩] ∧
    ((restarted.side .right).handed.map fun h => h.envelope.header).Nodup := by
  have hrun : (Link.start firstEpochs).run restarts = some restarted := by decide +kernel
  exact ⟨by decide +kernel,
    (data_delivered_at_most_once firstEpochs restarts restarted hrun .right).1⟩

end Bpc.Routed
