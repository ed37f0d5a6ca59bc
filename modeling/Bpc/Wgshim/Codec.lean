/-
  THE PACKET CODEC of the transport shim (`codec.go`, and `writeTCPFrame` of `tcp.go`).

  The cipher is outside (`Aead.Correct`).  Whatever is sealed is opened again
  (`openTyped_sealType`).  But the limit `maxInnerPacket` leaves no room for the PADDING, so a
  payload near it yields packets that no UDP socket sends (`sealed_beyond_limit`);
  `sealed_transportable_iff` is exact.
-/
import Bpc.Routed.Frame

namespace Bpc.Wgshim

open SlashPath (Str)
open Routed (toNat_toUInt8)

/-! ## The program -/

/-- `protocolVersion`. -/
def protocolVersion : UInt8 := 1
/-- `packetData`. -/
def packetData : UInt8 := 0
/-- `packetProbe`. -/
def packetProbe : UInt8 := 1
/-- `packetProbeReply`. -/
def packetProbeReply : UInt8 := 2
/-- `nonceSize`. -/
def nonceSize : Nat := 12
/-- `headerSize`. -/
def headerSize : Nat := 4
/-- `maxInnerPacket`. -/
def maxInnerPacket : Nat := 65507 - nonceSize - 16 - headerSize
/-- `maxTCPFrameSize`. -/
def maxTCPFrameSize : Nat := 65535

/-- The associated data. -/
def aad : List UInt8 := Routed.ascii "BPC-WGSHIM-v1"

/-- `cipher.AEAD`; `unseal` is `Open`. -/
structure Aead where
  nonceSize : Nat
  overhead : Nat
  /-- Nonce, plaintext, additional data. -/
  encrypt : List UInt8 → List UInt8 → List UInt8 → List UInt8
  decrypt : List UInt8 → List UInt8 → List UInt8 → Option (List UInt8)

/-- What is assumed of the cipher. -/
structure Aead.Correct (a : Aead) : Prop where
  nonce : a.nonceSize = 12
  tag : a.overhead = 16
  length : ∀ nonce plaintext ad, nonce.length = 12 →
    (a.encrypt nonce plaintext ad).length = plaintext.length + 16
  opens : ∀ nonce plaintext ad, nonce.length = 12 →
    a.decrypt nonce (a.encrypt nonce plaintext ad) ad = some plaintext

/-- A codec; its padding range is the one that `NewCodec` has checked. -/
structure Codec where
  aead : Aead
  paddingMin : Nat
  paddingMax : Nat
  ordered : paddingMin ≤ paddingMax
  bounded : paddingMax ≤ 255

/-- `NewCodec`; `newGCM` is `aes.NewCipher` with `cipher.NewGCM`. -/
def newCodec (newGCM : List UInt8 → Except Str Aead) (key : List UInt8)
    (paddingMin paddingMax : Int) : Except Str Codec :=
  if h : paddingMin < 0 ∨ paddingMax < paddingMin ∨ 255 < paddingMax then
    .error "padding range must satisfy 0 <= min <= max <= 255"
  else
    match newGCM key with
    | .error e => .error e
    | .ok aead => .ok ⟨aead, paddingMin.toNat, paddingMax.toNat, by omega, by omega⟩

/-- `io.ReadFull`: the bytes, and what is left. -/
def readFull (n : Nat) (random : List UInt8) : Option (List UInt8 × List UInt8) :=
  if n ≤ random.length then some (random.take n, random.drop n) else none

/-- Bytes from the limit on are drawn again. -/
def drawPadding (paddingMin span limit : Nat) : List UInt8 → Except Str (Nat × List UInt8)
  | [] => .error "generate padding length: EOF"
  | b :: random =>
    if b.toNat < limit then .ok (paddingMin + b.toNat % span, random)
    else drawPadding paddingMin span limit random

/-- `randomPaddingLength`. -/
def Codec.randomPaddingLength (c : Codec) (random : List UInt8) : Except Str (Nat × List UInt8) :=
  if c.paddingMin = c.paddingMax then .ok (c.paddingMin, random)
  else
    let span := c.paddingMax - c.paddingMin + 1
    drawPadding c.paddingMin span (256 - 256 % span) random

/-- A known packet type. -/
def isPacketType (t : UInt8) : Bool := t = packetData || t = packetProbe || t = packetProbeReply

/-- `sealType`: the packet, and the random bytes that are left. -/
def Codec.sealType (c : Codec) (packetType : UInt8) (payload random : List UInt8) :
    Except Str (List UInt8 × List UInt8) :=
  if !isPacketType packetType then
    .error ("unsupported packet type " ++ (toString packetType.toNat).toList)
  else if maxInnerPacket < payload.length ∨ 0xffff < payload.length then
    .error ("inner UDP payload too large: " ++ (toString payload.length).toList)
  else
    match c.randomPaddingLength random with
    | .error e => .error e
    | .ok (padLen, random) =>
      match readFull padLen random with
      | none => .error "generate padding: unexpected EOF"
      | some (padding, random) =>
        match readFull c.aead.nonceSize random with
        | none => .error "generate nonce: unexpected EOF"
        | some (nonce, random) =>
          let plaintext := protocolVersion :: packetType :: (payload.length / 256).toUInt8 ::
            (payload.length % 256).toUInt8 :: (payload ++ padding)
          .ok (nonce ++ c.aead.encrypt nonce plaintext aad, random)

/-- `OpenTyped`. -/
def Codec.openTyped (c : Codec) (packet : List UInt8) : Except Str (UInt8 × List UInt8) :=
  if packet.length < c.aead.nonceSize + c.aead.overhead + headerSize then
    .error "outer packet too short"
  else
    match c.aead.decrypt (packet.take c.aead.nonceSize) (packet.drop c.aead.nonceSize) aad with
    | none => .error "authentication failed"
    | some (version :: packetType :: high :: low :: body) =>
      if version ≠ protocolVersion then .error "invalid packet header"
      else if !isPacketType packetType then .error "unsupported packet type"
      else
        let payloadLen := high.toNat * 256 + low.toNat
        if body.length < payloadLen then .error "invalid payload length"
        else .ok (packetType, body.take payloadLen)
    | some _ => .error "invalid packet header"

/-- How many bytes were taken, and the error. -/
structure Writer (σ : Type) where
  write : σ → List UInt8 → (Nat × Option Str) × σ

/-- `writeAll`; the length bounds the rounds. -/
def writeAllIn {σ : Type} (w : Writer σ) : Nat → σ → List UInt8 → Except Str σ
  | _, s, [] => .ok s
  | 0, _, _ :: _ => .error "unexpected EOF"
  | rounds + 1, s, b :: payload =>
    match w.write s (b :: payload) with
    | ((_, some e), _) => .error e
    | ((n, none), s') =>
      if n = 0 then .error "unexpected EOF"
      else writeAllIn w rounds s' ((b :: payload).drop n)

/-- `writeAll`. -/
def writeAll {σ : Type} (w : Writer σ) (s : σ) (payload : List UInt8) : Except Str σ :=
  writeAllIn w payload.length s payload

/-- `binary.BigEndian.PutUint32`. -/
def bigEndian32 (n : Nat) : List UInt8 :=
  [(n / 16777216).toUInt8, (n / 65536).toUInt8, (n / 256).toUInt8, n.toUInt8]

/-- `writeTCPFrame`. -/
def writeTCPFrame {σ : Type} (w : Writer σ) (s : σ) (payload : List UInt8) : Except Str σ :=
  if payload.length = 0 ∨ maxTCPFrameSize < payload.length then
    .error ("invalid TCP frame size " ++ (toString payload.length).toList)
  else
    match writeAll w s (bigEndian32 payload.length) with
    | .error e => .error e
    | .ok s' => writeAll w s' payload

/-! ## Sealing -/

/-- A padding in the range, its bytes and a nonce. -/
structure Draws (c : Codec) (padding nonce : List UInt8) : Prop where
  least : c.paddingMin ≤ padding.length
  most : padding.length ≤ c.paddingMax
  nonce : nonce.length = c.aead.nonceSize

section

variable {c : Codec} {packetType : UInt8} {payload random rest packet : List UInt8}

theorem readFull_some {n : Nat} {bytes : List UInt8} (h : readFull n random = some (bytes, rest)) :
    bytes.length = n := by
  unfold readFull at h
  split at h
  · rename_i hn
    obtain ⟨rfl, rfl⟩ := Prod.mk.inj (Option.some.inj h)
    exact List.length_take_of_le hn
  · cases h

theorem drawPadding_ok {paddingMin span limit padLen : Nat}
    (h : drawPadding paddingMin span limit random = .ok (padLen, rest)) (hspan : 0 < span) :
    paddingMin ≤ padLen ∧ padLen < paddingMin + span := by
  induction random with
  | nil => cases h
  | cons b random ih =>
    rw [drawPadding] at h
    split at h
    · obtain ⟨rfl, rfl⟩ := Prod.mk.inj (Except.ok.inj h)
      have hmod := Nat.mod_lt b.toNat hspan
      omega
    · exact ih h

theorem randomPaddingLength_ok {padLen : Nat}
    (h : c.randomPaddingLength random = .ok (padLen, rest)) :
    c.paddingMin ≤ padLen ∧ padLen ≤ c.paddingMax := by
  have hordered := c.ordered
  unfold Codec.randomPaddingLength at h
  split at h
  · obtain ⟨rfl, rfl⟩ := Prod.mk.inj (Except.ok.inj h)
    exact ⟨le_refl _, hordered⟩
  · obtain ⟨hleast, hmost⟩ := drawPadding_ok h (Nat.succ_pos _)
    omega

theorem sealType_ok (h : c.sealType packetType payload random = .ok (packet, rest)) :
    isPacketType packetType = true ∧ payload.length ≤ maxInnerPacket ∧
    ∃ padding nonce, Draws c padding nonce ∧
      packet = nonce ++ c.aead.encrypt nonce (protocolVersion :: packetType ::
        (payload.length / 256).toUInt8 :: (payload.length % 256).toUInt8 :: (payload ++ padding))
        aad := by
  unfold Codec.sealType at h
  split at h
  · cases h
  rename_i htype
  split at h
  · cases h
  rename_i hlength
  split at h
  · cases h
  rename_i padLen random₁ hpad
  split at h
  · cases h
  rename_i padding random₂ hpadding
  split at h
  · cases h
  rename_i nonce random₃ hnonce
  obtain ⟨rfl, rfl⟩ := Prod.mk.inj (Except.ok.inj h)
  obtain ⟨hleast, hmost⟩ := randomPaddingLength_ok hpad
  have hpadLength := readFull_some hpadding
  refine ⟨by simpa using htype, by omega, padding, nonce, ⟨?_, ?_, readFull_some hnonce⟩, rfl⟩
  · rw [hpadLength]
    exact hleast
  · rw [hpadLength]
    exact hmost

/-- **The length of a sealed packet.** -/
theorem length_sealType (ha : c.aead.Correct)
    (h : c.sealType packetType payload random = .ok (packet, rest)) :
    ∃ padLen, c.paddingMin ≤ padLen ∧ padLen ≤ c.paddingMax ∧
      packet.length = payload.length + padLen + 32 := by
  obtain ⟨-, -, padding, nonce, hdraws, rfl⟩ := sealType_ok h
  have hnonce : nonce.length = 12 := hdraws.nonce.trans ha.nonce
  refine ⟨padding.length, hdraws.least, hdraws.most, ?_⟩
  rw [List.length_append, ha.length _ _ _ hnonce, hnonce]
  simp only [List.length_cons, List.length_append]
  omega

/-- **Whatever is sealed is opened again.** -/
theorem openTyped_sealType (ha : c.aead.Correct) {c' : Codec} (hsame : c'.aead = c.aead)
    (h : c.sealType packetType payload random = .ok (packet, rest)) :
    c'.openTyped packet = .ok (packetType, payload) := by
  obtain ⟨padLen, -, -, hlength⟩ := length_sealType ha h
  obtain ⟨htype, hsize, padding, nonce, hdraws, rfl⟩ := sealType_ok h
  have hmax : maxInnerPacket = 65475 := rfl
  have hheader : headerSize = 4 := rfl
  have hnonce : nonce.length = 12 := hdraws.nonce.trans ha.nonce
  have hhigh : (payload.length / 256).toUInt8.toNat = payload.length / 256 :=
    toNat_toUInt8 (by omega)
  have hlow : (payload.length % 256).toUInt8.toNat = payload.length % 256 :=
    toNat_toUInt8 (by omega)
  have hlen : payload.length / 256 * 256 + payload.length % 256 = payload.length := by omega
  unfold Codec.openTyped
  rw [hsame, ha.nonce, ha.tag, if_neg (by omega), List.take_left' hnonce, List.drop_left' hnonce,
    ha.opens _ _ _ hnonce]
  dsimp only
  rw [if_neg (by simp), if_neg (by simp [htype]), hhigh, hlow, hlen,
    if_neg (by rw [List.length_append]; omega), List.take_left' rfl]

theorem drawPadding_max (hpadding : c.paddingMin ≠ c.paddingMax) (random : List UInt8) :
    c.randomPaddingLength ((c.paddingMax - c.paddingMin).toUInt8 :: random) =
      .ok (c.paddingMax, random) := by
  have hordered := c.ordered
  have hbounded := c.bounded
  have hbyte : (c.paddingMax - c.paddingMin).toUInt8.toNat = c.paddingMax - c.paddingMin :=
    toNat_toUInt8 (by omega)
  -- the limit is the largest multiple of the span below 256, and the span itself is one
  have hlimit : c.paddingMax - c.paddingMin <
      256 - 256 % (c.paddingMax - c.paddingMin + 1) := by
    have hspan : c.paddingMax - c.paddingMin + 1 ≤ 256 := by omega
    have hdiv := Nat.div_add_mod 256 (c.paddingMax - c.paddingMin + 1)
    have hone : 1 ≤ 256 / (c.paddingMax - c.paddingMin + 1) :=
      Nat.div_pos hspan (Nat.succ_pos _)
    have hmul := Nat.mul_le_mul_left (c.paddingMax - c.paddingMin + 1) hone
    omega
  unfold Codec.randomPaddingLength
  rw [if_neg hpadding]
  dsimp only
  rw [drawPadding, hbyte, if_pos hlimit, Nat.mod_eq_of_lt (Nat.lt_succ_self _)]
  congr 2
  omega

theorem exists_sealType_max (ha : c.aead.Correct) (htype : isPacketType packetType = true)
    (hsize : payload.length ≤ maxInnerPacket) :
    ∃ random packet rest, c.sealType packetType payload random = .ok (packet, rest) ∧
      packet.length = payload.length + c.paddingMax + 32 := by
  have hmax : maxInnerPacket = 65475 := rfl
  obtain ⟨random, hdraw⟩ : ∃ random, c.randomPaddingLength random =
      .ok (c.paddingMax, List.replicate (c.paddingMax + 12) 0) := by
    by_cases hsame : c.paddingMin = c.paddingMax
    · refine ⟨List.replicate (c.paddingMax + 12) 0, ?_⟩
      unfold Codec.randomPaddingLength
      rw [if_pos hsame, hsame]
    · exact ⟨_, drawPadding_max hsame _⟩
  have hpad : readFull c.paddingMax (List.replicate (c.paddingMax + 12) (0 : UInt8)) =
      some (List.replicate c.paddingMax 0, List.replicate 12 0) := by
    unfold readFull
    rw [if_pos (by rw [List.length_replicate]; omega), List.take_replicate, List.drop_replicate]
    congr 3 <;> omega
  have hnonce : readFull 12 (List.replicate 12 (0 : UInt8)) = some (List.replicate 12 0, []) := rfl
  refine ⟨random, List.replicate 12 0 ++ c.aead.encrypt (List.replicate 12 0)
    (protocolVersion :: packetType :: (payload.length / 256).toUInt8 ::
      (payload.length % 256).toUInt8 :: (payload ++ List.replicate c.paddingMax 0)) aad, [], ?_, ?_⟩
  · unfold Codec.sealType
    rw [if_neg (by simp [htype]), if_neg (by omega), hdraw]
    dsimp only
    rw [hpad]
    dsimp only
    rw [ha.nonce, hnonce]
  · rw [List.length_append, ha.length _ _ _ (by simp)]
    simp only [List.length_cons, List.length_append, List.length_replicate]
    omega

end

/-! ## Transport -/

/-- A writer that reports no error, and takes something of a buffer, at most all. -/
def Writer.Works {σ : Type} (w : Writer σ) : Prop :=
  ∀ s buffer, buffer ≠ [] →
    ∃ n s', w.write s buffer = ((n, none), s') ∧ 0 < n ∧ n ≤ buffer.length

theorem writeAllIn_ok {σ : Type} {w : Writer σ} (hw : w.Works) :
    ∀ (rounds : Nat) (s : σ) (payload : List UInt8), payload.length ≤ rounds →
      ∃ s', writeAllIn w rounds s payload = .ok s'
  | _, s, [], _ => ⟨s, by simp [writeAllIn]⟩
  | 0, _, _ :: _, h => absurd h (by simp)
  | rounds + 1, s, b :: payload, h => by
    obtain ⟨n, s', hwrite, hn, _⟩ := hw s (b :: payload) (List.cons_ne_nil _ _)
    rw [writeAllIn, hwrite]
    dsimp only
    rw [if_neg (by omega)]
    refine writeAllIn_ok hw rounds s' _ ?_
    rw [List.length_drop]
    rw [List.length_cons] at h ⊢
    omega

theorem writeTCPFrame_ok {σ : Type} {w : Writer σ} (hw : w.Works) (s : σ) {payload : List UInt8}
    (hne : payload.length ≠ 0) (hsize : payload.length ≤ maxTCPFrameSize) :
    ∃ s', writeTCPFrame w s payload = .ok s' := by
  obtain ⟨s₁, hheader⟩ := writeAllIn_ok hw 4 s (bigEndian32 payload.length) (le_refl _)
  obtain ⟨s₂, hpayload⟩ := writeAllIn_ok hw payload.length s₁ payload (le_refl _)
  refine ⟨s₂, ?_⟩
  unfold writeTCPFrame writeAll
  rw [if_neg (by omega)]
  rw [show (bigEndian32 payload.length).length = 4 from rfl, hheader]
  exact hpayload

/-- UDP carries it, a TCP stream takes it, and every codec of the key opens it. -/
structure Transported (newGCM : List UInt8 → Except Str Aead) (key : List UInt8)
    (packetType : UInt8) (payload packet : List UInt8) : Prop where
  udp : packet.length ≤ 65507
  tcp : ∀ (σ : Type) (w : Writer σ) (s : σ), w.Works → ∃ s', writeTCPFrame w s packet = .ok s'
  opened : ∀ lo hi c', newCodec newGCM key lo hi = .ok c' →
    c'.openTyped packet = .ok (packetType, payload)

theorem aead_of_newCodec {newGCM : List UInt8 → Except Str Aead} {key : List UInt8} {lo hi : Int}
    {c : Codec} (h : newCodec newGCM key lo hi = .ok c) : newGCM key = .ok c.aead := by
  unfold newCodec at h
  split at h
  · cases h
  split at h
  · cases h
  rename_i aead haead
  obtain rfl := Except.ok.inj h
  exact haead

/-- **Which payloads are always transported.** -/
theorem sealed_transportable_iff {newGCM : List UInt8 → Except Str Aead}
    (hgcm : ∀ key aead, newGCM key = .ok aead → aead.Correct) {key : List UInt8} {lo hi : Int}
    {c : Codec} (hc : newCodec newGCM key lo hi = .ok c) {packetType : UInt8}
    (htype : isPacketType packetType = true) {payload : List UInt8}
    (hsize : payload.length ≤ maxInnerPacket) :
    (∀ random packet rest, c.sealType packetType payload random = .ok (packet, rest) →
      Transported newGCM key packetType payload packet) ↔
    payload.length + c.paddingMax ≤ maxInnerPacket := by
  have haead := aead_of_newCodec hc
  have ha := hgcm key c.aead haead
  have hmax : maxInnerPacket = 65475 := rfl
  have htcp : maxTCPFrameSize = 65535 := rfl
  constructor
  · intro hall
    obtain ⟨random, packet, rest, hseal, hlength⟩ := exists_sealType_max ha htype hsize
    have hudp := (hall random packet rest hseal).udp
    omega
  · intro hroom random packet rest hseal
    obtain ⟨padLen, -, hmost, hlength⟩ := length_sealType ha hseal
    refine ⟨by omega, fun σ w s hw => writeTCPFrame_ok hw s (by omega) (by omega), ?_⟩
    intro lo' hi' c' hc'
    have hsame : c'.aead = c.aead := Except.ok.inj ((aead_of_newCodec hc').symm.trans haead)
    exact openTyped_sealType ha hsame hseal

/-- A cipher that appends 16 zero bytes. -/
def plainAead : Aead where
  nonceSize := 12
  overhead := 16
  encrypt _ plaintext _ := plaintext ++ List.replicate 16 0
  decrypt _ ciphertext _ := some (ciphertext.take (ciphertext.length - 16))

theorem plainAead_correct : plainAead.Correct where
  nonce := rfl
  tag := rfl
  length nonce plaintext ad _ := by
    show (plaintext ++ List.replicate 16 0).length = _
    rw [List.length_append, List.length_replicate]
  opens nonce plaintext ad _ := by
    show some ((plaintext ++ List.replicate 16 0).take
      ((plaintext ++ List.replicate 16 0).length - 16)) = _
    rw [List.length_append, List.length_replicate, Nat.add_sub_cancel, List.take_left' rfl]

/-- Paddings up to 31. -/
def plainCodec : Codec := ⟨plainAead, 0, 31, by decide, by decide⟩

/-- A payload of three bytes, with paddings up to 31. -/
theorem sealed_transportable_small :
    newCodec (fun _ => .ok plainAead) [] 0 31 = .ok plainCodec ∧
    ∀ random packet rest, plainCodec.sealType packetData [1, 2, 3] random = .ok (packet, rest) →
      Transported (fun _ => .ok plainAead) [] packetData [1, 2, 3] packet :=
  ⟨rfl, (sealed_transportable_iff (fun _ _ h => Except.ok.inj h ▸ plainAead_correct)
    (show newCodec (fun _ => .ok plainAead) [] 0 31 = .ok plainCodec from rfl) rfl
    (by decide)).mpr (by decide)⟩

/-- **A payload of the accepted size whose packet is too long**: 65538 bytes. -/
theorem sealed_beyond_limit :
    newCodec (fun _ => .ok plainAead) [] 0 31 = .ok plainCodec ∧
    ∃ random packet rest, plainCodec.sealType packetData (List.replicate 65475 0) random =
        .ok (packet, rest) ∧ packet.length = 65538 ∧
      ¬ Transported (fun _ => .ok plainAead) [] packetData (List.replicate 65475 0) packet := by
  have hlength : (List.replicate 65475 (0 : UInt8)).length = 65475 := List.length_replicate
  have htype : isPacketType packetData = true := rfl
  have hsize : (List.replicate 65475 (0 : UInt8)).length ≤ maxInnerPacket := by
    rw [hlength]
    decide
  obtain ⟨random, packet, rest, hseal, hpacket⟩ :=
    exists_sealType_max (c := plainCodec) plainAead_correct htype hsize
  rw [hlength, show plainCodec.paddingMax = 31 from rfl] at hpacket
  refine ⟨rfl, random, packet, rest, hseal, hpacket, fun h => ?_⟩
  have hudp := h.udp
  omega

end Bpc.Wgshim
