/-
  THE BYTES OF A FRAME — `UnmarshalFrame` as the source reads it, by offsets.

  1. **No access outside** — by offsets the result is that of `unmarshalFrame`, for EVERY byte
     string.
  2. **The other direction** — what is accepted is the encoding of the frame it is read as
     (`marshalFrame_unmarshal`): no byte of it is free.
-/
import Bpc.Lib.Slice
import Bpc.Routed.Frame

namespace Bpc.Routed

open Slice

/-! ## Reading by offsets -/

/-- The loop over the hops; it returns the offset behind them. -/
def readHopsAt (raw : List UInt8) :
    Nat → Nat → List GoString → Option (Except GoString (List GoString × Nat))
  | 0, offset, hops => some (.ok (hops, offset))
  | count + 1, offset, hops =>
    if raw.length ≤ offset then some (.error (ascii "truncated routed frame hop"))
    else (byteAt raw offset).bind fun length =>
      if length.toNat = 0 ∨ 128 < length.toNat ∨ raw.length < offset + 1 + length.toNat then
        some (.error (ascii "invalid routed frame hop"))
      else (slice raw (offset + 1) (offset + 1 + length.toNat)).bind fun hop =>
        readHopsAt raw count (offset + 1 + length.toNat) (hops ++ [hop])

/-- The payload, by offsets. -/
def readPayloadAt (raw : List UInt8) (flags hopIndex : UInt8) (pathID owner : GoString)
    (hops : List GoString) (offset : Nat) : Option (Except GoString Frame) :=
  if raw.length < offset + 2 then some (.error (ascii "truncated routed frame payload length"))
  else (slice raw offset (offset + 2)).bind fun bytes =>
    (byteAt bytes 0).bind fun high => (byteAt bytes 1).bind fun low =>
      let payloadLen := high.toNat * 256 + low.toNat
      if payloadLen = 0 ∨ offset + 2 + payloadLen ≠ raw.length then
        some (.error (ascii "invalid routed frame payload length"))
      else (slice raw (offset + 2) raw.length).bind fun payload =>
        let frame : Frame := ⟨pathID, owner, hops, hopIndex.toNat, flags &&& 1 ≠ 0, payload⟩
        if flags &&& ~~~1 ≠ 0 then some (.error (ascii "unsupported routed frame flags"))
        else
          match frame.validateBasic with
          | .error e => some (.error e)
          | .ok () => some (.ok frame)

/-- The owner and the rest, by offsets. -/
def readOwnerAt (raw : List UInt8) (flags hopIndex hopCount : UInt8) (pathID : GoString)
    (offset : Nat) : Option (Except GoString Frame) :=
  (byteAt raw offset).bind fun ownerLen =>
    if ownerLen.toNat = 0 ∨ 128 < ownerLen.toNat ∨ raw.length < offset + 1 + ownerLen.toNat then
      some (.error (ascii "invalid routed frame owner"))
    else (slice raw (offset + 1) (offset + 1 + ownerLen.toNat)).bind fun owner =>
      if hopCount.toNat < 2 ∨ maxPathHops < hopCount.toNat then
        some (.error (ascii "invalid routed frame hop count"))
      else (readHopsAt raw hopCount.toNat (offset + 1 + ownerLen.toNat) []).bind fun result =>
        match result with
        | .error e => some (.error e)
        | .ok (hops, offset') => readPayloadAt raw flags hopIndex pathID owner hops offset'

/-- `UnmarshalFrame`, by offsets. -/
def unmarshalFrameAt (raw : List UInt8) : Option (Except GoString Frame) :=
  if raw.length < 12 then some (.error (ascii "invalid routed frame header"))
  else (slice raw 0 4).bind fun magic =>
    if magic ≠ frameMagic then some (.error (ascii "invalid routed frame header"))
    else (byteAt raw 4).bind fun flags => (byteAt raw 5).bind fun hopIndex =>
      (byteAt raw 6).bind fun hopCount => (byteAt raw 7).bind fun pathLen =>
        if pathLen.toNat = 0 ∨ 64 < pathLen.toNat ∨ raw.length < 8 + pathLen.toNat + 1 then
          some (.error (ascii "invalid routed frame path id"))
        else (slice raw 8 (8 + pathLen.toNat)).bind fun pathID =>
          readOwnerAt raw flags hopIndex hopCount pathID (8 + pathLen.toNat)

/-! ## No access outside -/

section

variable {raw rest : List UInt8} {offset : Nat}

theorem readHopsAt_eq (count : Nat) (hops : List GoString) (h : At raw offset rest) :
    (∀ e, readHops count rest = .error e → readHopsAt raw count offset hops = some (.error e)) ∧
    ∀ more rest', readHops count rest = .ok (more, rest') →
      ∃ offset', readHopsAt raw count offset hops = some (.ok (hops ++ more, offset')) ∧
        At raw offset' rest' := by
  induction count generalizing offset rest hops with
  | zero =>
    refine ⟨(fun e he => by cases he), fun more rest' hok => ?_⟩
    obtain ⟨rfl, rfl⟩ := Prod.mk.inj (Except.ok.inj hok)
    exact ⟨offset, by rw [List.append_nil]; rfl, h⟩
  | succ count ih =>
    cases rest with
    | nil =>
      have hlength := h.length
      rw [List.length_nil] at hlength
      refine ⟨fun e he => ?_, (fun more rest' hok => by cases hok)⟩
      rw [readHopsAt, if_pos (by omega), ← Except.error.inj he]
    | cons length rest =>
      have hlength := h.length
      rw [List.length_cons] at hlength
      obtain ⟨hbyte, hnext⟩ := h.byte
      have hinside : ¬ raw.length ≤ offset := by omega
      rw [readHopsAt, readHops, if_neg hinside, hbyte, Option.bind_some]
      by_cases hbad : length.toNat = 0 ∨ 128 < length.toNat ∨ rest.length < length.toNat
      · rw [if_pos hbad, if_pos (by omega)]
        refine ⟨fun e he => ?_, (fun more rest' hok => by cases hok)⟩
        rw [← Except.error.inj he]
      · rw [if_neg hbad, if_neg (by omega)]
        obtain ⟨hslice, hbehind⟩ := hnext.slice (n := length.toNat) (by omega)
        obtain ⟨herror, hread⟩ := ih (hops ++ [rest.take length.toNat]) hbehind
        rw [hslice, Option.bind_some]
        cases hrec : readHops count (rest.drop length.toNat) with
        | error e =>
          refine ⟨fun e' he => ?_, (fun more rest' hok => by cases hok)⟩
          rw [← Except.error.inj he]
          exact herror e hrec
        | ok result =>
          obtain ⟨more, rest'⟩ := result
          refine ⟨(fun e he => by cases he), fun more' rest'' hok => ?_⟩
          obtain ⟨rfl, rfl⟩ := Prod.mk.inj (Except.ok.inj hok)
          obtain ⟨offset', hoffset, hat⟩ := hread more rest' hrec
          refine ⟨offset', ?_, hat⟩
          rw [hoffset, List.append_assoc, List.singleton_append]

theorem readPayloadAt_eq (flags hopIndex : UInt8) (pathID owner : GoString) (hops : List GoString)
    (h : At raw offset rest) :
    readPayloadAt raw flags hopIndex pathID owner hops offset =
      some (readPayload flags hopIndex pathID owner hops rest) := by
  have hlength := h.length
  unfold readPayloadAt
  match rest, h, hlength with
  | [], _, hlength =>
    rw [List.length_nil] at hlength
    rw [if_pos (by omega)]
    rfl
  | [_], _, hlength =>
    rw [List.length_singleton] at hlength
    rw [if_pos (by omega)]
    rfl
  | high :: low :: payload, h, hlength =>
    rw [List.length_cons, List.length_cons] at hlength
    obtain ⟨hbytes, hbehind⟩ := h.slice (n := 2) (by simp)
    obtain ⟨hpayload, -⟩ := hbehind.slice (n := payload.length) (le_refl _)
    rw [show offset + 2 + payload.length = raw.length by omega] at hpayload
    rw [if_neg (by omega), hbytes, Option.bind_some]
    show (if high.toNat * 256 + low.toNat = 0 ∨
        offset + 2 + (high.toNat * 256 + low.toNat) ≠ raw.length then _ else _) = _
    rw [readPayload, hpayload]
    -- the two checks of the length say the same
    by_cases hbad : high.toNat * 256 + low.toNat = 0 ∨
        payload.length ≠ high.toNat * 256 + low.toNat
    · rw [if_pos hbad, if_pos (by omega)]
    · rw [if_neg hbad, if_neg (by omega), Option.bind_some]
      show (if flags &&& ~~~1 ≠ 0 then _ else _) = _
      rw [show (List.drop 2 (high :: low :: payload)).take payload.length = payload from
        List.take_length]
      split
      · rfl
      · split <;> simp only [*]

theorem readOwnerAt_eq (flags hopIndex hopCount : UInt8) (pathID : GoString)
    (h : At raw offset rest) (hne : rest ≠ []) :
    readOwnerAt raw flags hopIndex hopCount pathID offset =
      some (readOwner flags hopIndex hopCount pathID rest) := by
  have hlength := h.length
  cases rest with
  | nil => exact absurd rfl hne
  | cons ownerLen rest =>
    rw [List.length_cons] at hlength
    obtain ⟨hbyte, hnext⟩ := h.byte
    rw [readOwnerAt, readOwner, hbyte, Option.bind_some]
    by_cases hbad : ownerLen.toNat = 0 ∨ 128 < ownerLen.toNat ∨ rest.length < ownerLen.toNat
    · rw [if_pos hbad, if_pos (by omega)]
    · obtain ⟨hslice, hbehind⟩ := hnext.slice (n := ownerLen.toNat) (by omega)
      rw [if_neg hbad, if_neg (by omega), hslice, Option.bind_some]
      split
      · rfl
      · obtain ⟨herror, hread⟩ := readHopsAt_eq hopCount.toNat [] hbehind
        cases hhops : readHops hopCount.toNat (rest.drop ownerLen.toNat) with
        | error e => rw [herror e hhops, Option.bind_some]
        | ok result =>
          obtain ⟨hops, rest'⟩ := result
          obtain ⟨offset', hoffset, hat⟩ := hread hops rest' hhops
          rw [hoffset, Option.bind_some]
          exact readPayloadAt_eq flags hopIndex pathID _ hops hat

end

/-- **Reading by offsets never leaves the bytes.** -/
theorem unmarshalFrameAt_eq (raw : List UInt8) :
    unmarshalFrameAt raw = some (unmarshalFrame raw) := by
  unfold unmarshalFrameAt unmarshalFrame
  by_cases hshort : raw.length < 12
  · rw [if_pos hshort, if_pos (.inl hshort)]
  rw [if_neg hshort]
  obtain ⟨hmagic, hbehind⟩ := (at_start raw).slice (n := 4) (by omega)
  rw [Nat.zero_add] at hmagic hbehind
  rw [hmagic, Option.bind_some]
  by_cases hother : raw.take 4 ≠ frameMagic
  · rw [if_pos hother, if_pos (.inr hother)]
  rw [if_neg hother, if_neg (by rintro (h | h); exacts [hshort h, hother h])]
  have hlength := hbehind.length
  match hrest : raw.drop 4, hlength with
  | [], hlength => rw [List.length_nil] at hlength; omega
  | [_], hlength => rw [List.length_singleton] at hlength; omega
  | [_, _], hlength => simp only [List.length_cons, List.length_nil] at hlength; omega
  | [_, _, _], hlength => simp only [List.length_cons, List.length_nil] at hlength; omega
  | flags :: hopIndex :: hopCount :: pathLen :: rest, hlength =>
    simp only [List.length_cons] at hlength
    rw [hrest] at hbehind
    obtain ⟨hflags, hat⟩ := hbehind.byte
    obtain ⟨hindex, hat⟩ := hat.byte
    obtain ⟨hcount, hat⟩ := hat.byte
    obtain ⟨hpath, hat⟩ := hat.byte
    rw [hflags, hindex, hcount, hpath]
    simp only [Option.bind_some]
    by_cases hbad : pathLen.toNat = 0 ∨ 64 < pathLen.toNat ∨ rest.length < pathLen.toNat + 1
    · rw [if_pos hbad, if_pos (by omega)]
    · obtain ⟨hslice, hat⟩ := hat.slice (n := pathLen.toNat) (by omega)
      rw [if_neg hbad, if_neg (by omega), hslice, Option.bind_some]
      refine readOwnerAt_eq flags hopIndex hopCount _ hat fun hnil => ?_
      have hzero := congrArg List.length hnil
      rw [List.length_drop, List.length_nil] at hzero
      omega

/-! ## What is accepted is an encoding -/

theorem toUInt8_toNat (b : UInt8) : b.toNat.toUInt8 = b := by simp

theorem marshalText_take (length : UInt8) (rest : List UInt8)
    (h : length.toNat ≤ rest.length) :
    length :: rest = marshalText (rest.take length.toNat) ++ rest.drop length.toNat := by
  show length :: rest = (rest.take length.toNat).length.toUInt8 ::
    (rest.take length.toNat ++ rest.drop length.toNat)
  rw [List.take_append_drop, List.length_take_of_le h, toUInt8_toNat]

theorem readHops_ok {count : Nat} {bytes rest : List UInt8} {hops : List GoString}
    (h : readHops count bytes = .ok (hops, rest)) :
    bytes = (hops.map marshalText).flatten ++ rest ∧ hops.length = count := by
  induction count generalizing bytes hops with
  | zero =>
    obtain ⟨rfl, rfl⟩ := Prod.mk.inj (Except.ok.inj h)
    exact ⟨rfl, rfl⟩
  | succ count ih =>
    cases bytes with
    | nil => cases h
    | cons length bytes =>
      rw [readHops] at h
      split at h
      · cases h
      rename_i hlength
      cases hrec : readHops count (bytes.drop length.toNat) with
      | error e => rw [hrec] at h; cases h
      | ok result =>
        obtain ⟨more, rest'⟩ := result
        rw [hrec] at h
        obtain ⟨rfl, rfl⟩ := Prod.mk.inj (Except.ok.inj h)
        obtain ⟨hbytes, hcount⟩ := ih hrec
        refine ⟨?_, by rw [List.length_cons, hcount]⟩
        rw [marshalText_take length bytes (by omega), hbytes, List.map_cons, List.flatten_cons,
          List.append_assoc]

theorem flags_eq (flags : UInt8) (h : flags &&& ~~~1 = 0) :
    flags = if flags &&& 1 ≠ 0 then 1 else 0 := by
  have hall : ∀ n : Fin 256, UInt8.ofFin n &&& ~~~1 = 0 →
      UInt8.ofFin n = if UInt8.ofFin n &&& 1 ≠ 0 then 1 else 0 := by decide +kernel
  exact hall flags.toFin h

theorem readPayload_ok {flags hopIndex : UInt8} {pathID owner : GoString} {hops : List GoString}
    {rest : List UInt8} {f : Frame}
    (h : readPayload flags hopIndex pathID owner hops rest = .ok f) :
    f.validateBasic = .ok () ∧ f.pathID = pathID ∧ f.ownerNodeID = owner ∧ f.hops = hops ∧
      hopIndex = f.hopIndex.toUInt8 ∧ flags = (if f.isReturn then 1 else 0) ∧
      rest = (f.payload.length / 256).toUInt8 :: (f.payload.length % 256).toUInt8 :: f.payload := by
  unfold readPayload at h
  split at h
  · rename_i high low payload
    split at h
    · cases h
    rename_i hlength
    split at h
    · cases h
    rename_i hflags
    dsimp only at h
    split at h
    · cases h
    rename_i hbasic
    obtain rfl := Except.ok.inj h
    refine ⟨hbasic, rfl, rfl, rfl, (toUInt8_toNat hopIndex).symm, ?_, ?_⟩
    · simpa using flags_eq flags (not_not.mp hflags)
    · have hlen : payload.length = high.toNat * 256 + low.toNat := by omega
      have hlow : low.toNat < 256 := low.toNat_lt
      rw [hlen, show (high.toNat * 256 + low.toNat) / 256 = high.toNat by omega,
        show (high.toNat * 256 + low.toNat) % 256 = low.toNat by omega, toUInt8_toNat,
        toUInt8_toNat]
  · cases h

/-- **Whatever is accepted is the encoding of the frame it is read as.** -/
theorem marshalFrame_unmarshal {raw : List UInt8} {f : Frame} (h : unmarshalFrame raw = .ok f) :
    f.validateBasic = .ok () ∧ marshalFrame f = .ok raw := by
  unfold unmarshalFrame at h
  split at h
  · cases h
  rename_i hheader
  have hmagic : raw.take 4 = frameMagic := by
    by_contra hne
    exact hheader (.inr hne)
  split at h
  case h_2 => cases h
  rename_i flags hopIndex hopCount pathLen rest hrest
  split at h
  · cases h
  rename_i hpath
  unfold readOwner at h
  split at h
  case h_2 => cases h
  rename_i ownerLen rest₁ hrest₁
  split at h
  · cases h
  rename_i howner
  split at h
  · cases h
  split at h
  · cases h
  rename_i hops rest₂ hhops
  obtain ⟨hbasic, hpathID, hownerID, rfl, rfl, rfl, hpayload⟩ := readPayload_ok h
  obtain ⟨hhops, hcount⟩ := readHops_ok hhops
  refine ⟨hbasic, ?_⟩
  unfold marshalFrame
  rw [hbasic]
  -- put the parts together again, from the end
  have hbytes : raw = frameMagic ++ ((if f.isReturn then 1 else 0) :: f.hopIndex.toUInt8 ::
      hopCount :: pathLen :: rest) := by
    rw [← hmagic, ← hrest, List.take_append_drop]
  rw [marshalText_take pathLen rest (by omega), hrest₁,
    marshalText_take ownerLen rest₁ (by omega), hhops, hpayload] at hbytes
  rw [hbytes, hpathID, hownerID, hcount, toUInt8_toNat]
  simp only [List.append_assoc, List.cons_append]

/-- **The encoding is a bijection between checked frames and accepted byte strings.** -/
theorem frame_encoding_bijection :
    (∀ f : Frame, f.validateBasic = .ok () →
      ∃ raw, marshalFrame f = .ok raw ∧ unmarshalFrameAt raw = some (.ok f)) ∧
    ∀ raw : List UInt8,
      (∃ e, unmarshalFrameAt raw = some (.error e)) ∨
      ∃ f, unmarshalFrameAt raw = some (.ok f) ∧ f.validateBasic = .ok () ∧
        marshalFrame f = .ok raw := by
  constructor
  · intro f hbasic
    obtain ⟨raw, hraw⟩ : ∃ raw, marshalFrame f = .ok raw := by
      unfold marshalFrame
      rw [hbasic]
      exact ⟨_, rfl⟩
    exact ⟨raw, hraw, by rw [unmarshalFrameAt_eq, unmarshalFrame_marshal hraw]⟩
  · intro raw
    rw [unmarshalFrameAt_eq]
    cases hread : unmarshalFrame raw with
    | error e => exact .inl ⟨e, rfl⟩
    | ok f => exact .inr ⟨f, rfl, marshalFrame_unmarshal hread⟩

end Bpc.Routed
