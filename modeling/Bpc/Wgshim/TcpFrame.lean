/-
  FRAMES ON A TCP STREAM (`internal/wgshim/tcp.go`), however the stream is cut into writes and
  reads.

  A reader DELIVERS a stream when every read hands out the next bytes of it, and reports an error
  only when nothing is left.  **The crux** (`readFull_spec`) — `io.ReadFull` depends on the number
  of bytes left and on nothing else; so the frames before a cut come back, and then an error
  (`framing_transparent`).
-/
import Bpc.Lib.BigEndian
import Bpc.Wgshim.Codec

namespace Bpc.Wgshim

open SlashPath (Str)

variable {σ τ : Type}

/-! ## The program -/

/-- The bytes for a buffer of the given length, and the error. -/
structure Reader (σ : Type) where
  read : σ → Nat → (List UInt8 × Option Str) × σ

/-- `io.EOF`. -/
def eof : Str := "EOF"
/-- `io.ErrUnexpectedEOF`. -/
def unexpectedEOF : Str := "unexpected EOF"

/-- The loop of `io.ReadFull`; `wanted` bounds the rounds. -/
def Reader.readFullIn (r : Reader σ) :
    Nat → σ → Nat → List UInt8 → Except Str (List UInt8) × σ
  | _, s, 0, got => (.ok got, s)
  | 0, s, _ + 1, _ => (.error unexpectedEOF, s)
  | rounds + 1, s, wanted + 1, got =>
    match r.read s (wanted + 1) with
    | ((bytes, none), s') => r.readFullIn rounds s' (wanted + 1 - bytes.length) (got ++ bytes)
    | ((bytes, some e), s') =>
      if wanted + 1 ≤ bytes.length then (.ok (got ++ bytes), s')
      else (.error (if e = eof ∧ got ++ bytes ≠ [] then unexpectedEOF else e), s')

/-- `io.ReadFull`. -/
def Reader.readFull (r : Reader σ) (s : σ) (size : Nat) : Except Str (List UInt8) × σ :=
  r.readFullIn size s size []

/-- `readTCPFrame`. -/
def Reader.readTCPFrame (r : Reader σ) (s : σ) : Except Str (List UInt8) × σ :=
  match r.readFull s 4 with
  | (.error e, s') => (.error e, s')
  | (.ok header, s') =>
    let size := BigEndian.value header
    if size = 0 ∨ maxTCPFrameSize < size then
      (.error ("invalid TCP frame size " ++ (toString size).toList), s')
    else r.readFull s' size

/-- At most `calls` calls of `readTCPFrame`, up to the first error. -/
def Reader.readFrames (r : Reader σ) : Nat → σ → List (Except Str (List UInt8))
  | 0, _ => []
  | calls + 1, s =>
    match r.readTCPFrame s with
    | (.ok payload, s') => .ok payload :: r.readFrames calls s'
    | (.error e, _) => [.error e]

/-- The payloads are written one after the other. -/
def writeFrames (w : Writer σ) : σ → List (List UInt8) → Except Str σ
  | s, [] => .ok s
  | s, payload :: rest =>
    match writeTCPFrame w s payload with
    | .error e => .error e
    | .ok s' => writeFrames w s' rest

/-! ## The stream -/

/-- The writer with the bytes that it has taken. -/
def Writer.recording (w : Writer σ) : Writer (σ × List UInt8) where
  write state buffer :=
    let ((n, e), s') := w.write state.1 buffer
    ((n, e), (s', state.2 ++ buffer.take n))

/-- The bytes of one frame. -/
def frame (payload : List UInt8) : List UInt8 := bigEndian32 payload.length ++ payload

/-- The payloads whose frames end within `cut` bytes. -/
def completeWithin : Nat → List (List UInt8) → List (List UInt8)
  | _, [] => []
  | cut, payload :: rest =>
    if (frame payload).length ≤ cut then
      payload :: completeWithin (cut - (frame payload).length) rest
    else []

/-- The reader hands out the stream, in pieces of its own choice. -/
def Reader.Delivers (r : Reader σ) (left : σ → List UInt8) : Prop :=
  ∀ s size, 0 < size → ∃ bytes e s', r.read s size = ((bytes, e), s') ∧
    left s = bytes ++ left s' ∧ bytes.length ≤ size ∧
    (e = none → bytes ≠ []) ∧ (e ≠ none → left s' = [])

theorem length_frame (payload : List UInt8) : (frame payload).length = 4 + payload.length := by
  rw [frame, List.length_append]
  rfl

theorem completeWithin_le (cut : Nat) (payloads : List (List UInt8)) :
    completeWithin cut payloads <+: payloads := by
  induction payloads generalizing cut with
  | nil => exact List.prefix_rfl
  | cons payload rest ih =>
    rw [completeWithin]
    split
    · exact List.prefix_cons_inj payload |>.mpr (ih _)
    · exact List.nil_prefix

/-! ## Writing -/

theorem writeAllIn_recording {w : Writer σ} (hw : w.Works) (rounds : Nat) (s : σ)
    (out payload : List UInt8) (hrounds : payload.length ≤ rounds) :
    ∃ s', writeAllIn w.recording rounds (s, out) payload = .ok (s', out ++ payload) := by
  induction rounds generalizing s out payload with
  | zero =>
    obtain rfl := List.length_eq_zero_iff.mp (Nat.le_zero.mp hrounds)
    exact ⟨s, by simp [writeAllIn]⟩
  | succ rounds ih =>
    cases payload with
    | nil => exact ⟨s, by simp [writeAllIn]⟩
    | cons b payload =>
      obtain ⟨n, s₁, hwrite, hn, _⟩ := hw s (b :: payload) (List.cons_ne_nil _ _)
      rw [List.length_cons] at hrounds
      obtain ⟨s', hrest⟩ := ih s₁ (out ++ (b :: payload).take n) ((b :: payload).drop n)
        (by rw [List.length_drop, List.length_cons]; omega)
      refine ⟨s', ?_⟩
      have hrecord : w.recording.write (s, out) (b :: payload) =
          ((n, none), (s₁, out ++ (b :: payload).take n)) := by
        simp only [Writer.recording, hwrite]
      rw [writeAllIn, hrecord]
      dsimp only
      rw [if_neg (by omega), hrest, List.append_assoc, List.take_append_drop]

theorem writeFrames_recording {w : Writer σ} (hw : w.Works) (payloads : List (List UInt8))
    (hsizes : ∀ payload ∈ payloads, 1 ≤ payload.length ∧ payload.length ≤ 65535) (s : σ)
    (out : List UInt8) :
    ∃ s', writeFrames w.recording (s, out) payloads = .ok (s', out ++ payloads.flatMap frame) := by
  induction payloads generalizing s out with
  | nil => exact ⟨s, by simp [writeFrames]⟩
  | cons payload rest ih =>
    have hmax : maxTCPFrameSize = 65535 := rfl
    obtain ⟨hleast, hmost⟩ := hsizes payload List.mem_cons_self
    obtain ⟨s₁, hheader⟩ :=
      writeAllIn_recording hw 4 s out (bigEndian32 payload.length) (Nat.le_refl 4)
    obtain ⟨s₂, hbody⟩ := writeAllIn_recording hw payload.length s₁
      (out ++ bigEndian32 payload.length) payload (Nat.le_refl _)
    obtain ⟨s', hrest⟩ := ih (fun p hp => hsizes p (List.mem_cons_of_mem _ hp)) s₂
      (out ++ bigEndian32 payload.length ++ payload)
    refine ⟨s', ?_⟩
    have hwrite : writeTCPFrame w.recording (s, out) payload =
        .ok (s₂, out ++ bigEndian32 payload.length ++ payload) := by
      unfold writeTCPFrame writeAll
      rw [if_neg (by omega), show (bigEndian32 payload.length).length = 4 from rfl, hheader]
      exact hbody
    rw [writeFrames, hwrite]
    dsimp only
    rw [hrest, List.flatMap_cons, frame]
    simp only [List.append_assoc]

/-! ## Reading -/

section

variable {r : Reader τ} {left : τ → List UInt8} (hr : r.Delivers left)
include hr

/-- **`io.ReadFull` sees the stream only.** -/
theorem Reader.readFullIn_spec (rounds : Nat) (t : τ) (wanted : Nat) (got : List UInt8)
    (hrounds : wanted ≤ rounds) :
    (wanted ≤ (left t).length ∧ ∃ t', r.readFullIn rounds t wanted got =
        (.ok (got ++ (left t).take wanted), t') ∧ left t' = (left t).drop wanted) ∨
    ((left t).length < wanted ∧ ∃ e t', r.readFullIn rounds t wanted got = (.error e, t')) := by
  induction rounds generalizing t wanted got with
  | zero =>
    obtain rfl := Nat.le_zero.mp hrounds
    exact .inl ⟨Nat.zero_le _, t, by simp [readFullIn], rfl⟩
  | succ rounds ih =>
    cases wanted with
    | zero => exact .inl ⟨Nat.zero_le _, t, by simp [readFullIn], rfl⟩
    | succ wanted =>
      obtain ⟨bytes, e, t₁, hread, hleft, hfits, hsome, hend⟩ := hr t (wanted + 1) (Nat.succ_pos _)
      rw [readFullIn, hread, hleft, List.length_append, List.take_append, List.drop_append]
      cases e with
      | none =>
        have hpos := List.length_pos_iff.mpr (hsome rfl)
        rw [List.take_of_length_le hfits, List.drop_eq_nil_of_le hfits, List.nil_append,
          ← List.append_assoc]
        dsimp only
        rcases ih t₁ (wanted + 1 - bytes.length) (got ++ bytes) (by omega) with
          ⟨hle, hok⟩ | ⟨hlt, herr⟩
        · exact .inl ⟨by omega, hok⟩
        · exact .inr ⟨by omega, herr⟩
      | some e =>
        have hnothing := hend (by simp)
        dsimp only
        rw [hnothing]
        split
        · rename_i hle
          refine .inl ⟨by omega, t₁, ?_, ?_⟩
          · rw [List.take_of_length_le hfits, List.take_nil, List.append_nil]
          · rw [List.drop_eq_nil_of_le hfits, hnothing, List.drop_nil, List.append_nil]
        · refine .inr ⟨?_, _, _, rfl⟩
          rw [List.length_nil]
          omega

theorem Reader.readFull_ok {t : τ} {bytes rest : List UInt8} (h : left t = bytes ++ rest) :
    ∃ t', r.readFull t bytes.length = (.ok bytes, t') ∧ left t' = rest := by
  rcases r.readFullIn_spec hr bytes.length t bytes.length [] (Nat.le_refl _) with
    ⟨_, t', hok, hleft⟩ | ⟨hlt, _⟩
  · rw [h, List.take_left, List.nil_append] at hok
    rw [h, List.drop_left] at hleft
    exact ⟨t', hok, hleft⟩
  · rw [h, List.length_append] at hlt
    omega

theorem Reader.readFull_error {t : τ} {size : Nat} (h : (left t).length < size) :
    ∃ e t', r.readFull t size = (.error e, t') := by
  rcases r.readFullIn_spec hr size t size [] (Nat.le_refl _) with ⟨hle, _⟩ | ⟨_, herr⟩
  · omega
  · exact herr

variable {payload : List UInt8} (hleast : 1 ≤ payload.length) (hmost : payload.length ≤ 65535)
include hleast hmost

theorem Reader.readTCPFrame_header {t : τ} {rest : List UInt8}
    (h : left t = bigEndian32 payload.length ++ rest) :
    ∃ t', r.readTCPFrame t = r.readFull t' payload.length ∧ left t' = rest := by
  have hmax : maxTCPFrameSize = 65535 := rfl
  obtain ⟨t', hheader, hleft⟩ := r.readFull_ok hr h
  refine ⟨t', ?_, hleft⟩
  have hput : bigEndian32 payload.length = BigEndian.put 4 payload.length := by
    simp [bigEndian32, BigEndian.put]
  have hvalue : BigEndian.value (bigEndian32 payload.length) = payload.length := by
    rw [hput, BigEndian.value_put]
    omega
  unfold readTCPFrame
  rw [show 4 = (bigEndian32 payload.length).length from rfl, hheader]
  dsimp only
  rw [hvalue, if_neg (by omega)]

theorem Reader.readTCPFrame_whole {t : τ} {rest : List UInt8} (h : left t = frame payload ++ rest) :
    ∃ t', r.readTCPFrame t = (.ok payload, t') ∧ left t' = rest := by
  rw [frame, List.append_assoc] at h
  obtain ⟨t₁, hframe, hleft⟩ := r.readTCPFrame_header hr hleast hmost h
  rw [hframe]
  exact r.readFull_ok hr hleft

theorem Reader.readTCPFrame_cut {t : τ} {cut : Nat} (hcut : cut < (frame payload).length)
    (h : left t = (frame payload).take cut) : ∃ e t', r.readTCPFrame t = (.error e, t') := by
  rw [length_frame] at hcut
  by_cases hheader : cut < 4
  · obtain ⟨e, t', herr⟩ := r.readFull_error hr
      (show (left t).length < 4 by rw [h, List.length_take]; omega)
    refine ⟨e, t', ?_⟩
    rw [readTCPFrame, herr]
  · have hlength : (bigEndian32 payload.length).length = 4 := rfl
    rw [frame, List.take_append, List.take_of_length_le (by omega)] at h
    obtain ⟨t₁, hframe, hleft⟩ := r.readTCPFrame_header hr hleast hmost h
    rw [hframe]
    apply r.readFull_error hr
    rw [hleft, List.length_take]
    omega

end

theorem Reader.readFrames_eq {r : Reader τ} {left : τ → List UInt8} (hr : r.Delivers left)
    (payloads : List (List UInt8))
    (hsizes : ∀ payload ∈ payloads, 1 ≤ payload.length ∧ payload.length ≤ 65535) (t : τ) (cut : Nat)
    (h : left t = (payloads.flatMap frame).take cut) :
    ∃ e, ∀ calls, (completeWithin cut payloads).length < calls →
      r.readFrames calls t = (completeWithin cut payloads).map .ok ++ [.error e] := by
  induction payloads generalizing t cut with
  | nil =>
    obtain ⟨e, t', herr⟩ := r.readFull_error hr (show (left t).length < 4 by rw [h]; simp)
    refine ⟨e, fun calls hcalls => ?_⟩
    obtain ⟨calls, rfl⟩ := Nat.exists_eq_add_one_of_ne_zero (Nat.ne_zero_of_lt hcalls)
    rw [readFrames, readTCPFrame, herr]
    rfl
  | cons payload rest ih =>
    obtain ⟨hleast, hmost⟩ := hsizes payload List.mem_cons_self
    rw [List.flatMap_cons, List.take_append] at h
    rw [completeWithin]
    split
    · rename_i hwhole
      rw [List.take_of_length_le hwhole] at h
      obtain ⟨t', hframe, hleft⟩ := r.readTCPFrame_whole hr hleast hmost h
      obtain ⟨e, hrest⟩ := ih (fun p hp => hsizes p (List.mem_cons_of_mem _ hp)) t' _ hleft
      refine ⟨e, fun calls hcalls => ?_⟩
      rw [List.length_cons] at hcalls
      obtain ⟨calls, rfl⟩ := Nat.exists_eq_add_one_of_ne_zero (Nat.ne_zero_of_lt hcalls)
      rw [readFrames, hframe]
      dsimp only
      rw [hrest calls (by omega)]
      rfl
    · rename_i hcut
      rw [Nat.sub_eq_zero_of_le (by omega), List.take_zero, List.append_nil] at h
      obtain ⟨e, t', herr⟩ := r.readTCPFrame_cut hr hleast hmost (by omega) h
      refine ⟨e, fun calls hcalls => ?_⟩
      obtain ⟨calls, rfl⟩ := Nat.exists_eq_add_one_of_ne_zero (Nat.ne_zero_of_lt hcalls)
      rw [readFrames, herr]
      rfl

/-- **Framing is transparent.**  Payloads of 1 to 65535 bytes are written without an error.  Cut
    the stream anywhere and read it in any pieces: the complete payloads come back in order and
    unchanged, then an error, and nothing else. -/
theorem framing_transparent {w : Writer σ} (hw : w.Works) (s : σ) (payloads : List (List UInt8))
    (hsizes : ∀ payload ∈ payloads, 1 ≤ payload.length ∧ payload.length ≤ 65535) :
    ∃ s' stream, writeFrames w.recording (s, []) payloads = .ok (s', stream) ∧
      ∀ (τ : Type) (r : Reader τ) (left : τ → List UInt8) (t : τ) (cut : Nat), r.Delivers left →
        left t = stream.take cut →
        completeWithin cut payloads <+: payloads ∧
        ∃ e, ∀ calls, (completeWithin cut payloads).length < calls →
          r.readFrames calls t = (completeWithin cut payloads).map .ok ++ [.error e] := by
  obtain ⟨s', hwrite⟩ := writeFrames_recording hw payloads hsizes s []
  refine ⟨s', payloads.flatMap frame, hwrite, ?_⟩
  intro τ r left t cut hr h
  exact ⟨completeWithin_le cut payloads, r.readFrames_eq hr payloads hsizes t cut h⟩

/-- A writer and a reader that move one byte at a time. -/
def byteWriter : Writer Unit where
  write _ _ := ((1, none), ())

/-- A reader of one byte at a time. -/
def byteReader : Reader (List UInt8) where
  read s _ := match s with
    | [] => (([], some eof), [])
    | b :: rest => (([b], none), rest)

/-- Two payloads, byte by byte, the second cut off after its header. -/
theorem framing_transparent_bytes :
    ∃ stream, writeFrames byteWriter.recording ((), []) [[1, 2], [3]] = .ok ((), stream) ∧
      ∃ e, ∀ calls, 1 < calls →
        byteReader.readFrames calls (stream.take 10) = [.ok [1, 2], .error e] := by
  obtain ⟨_, stream, hwrite, hread⟩ := framing_transparent (w := byteWriter)
    (fun _ _ hne => ⟨1, (), rfl, Nat.one_pos, List.length_pos_iff.mpr hne⟩) () [[1, 2], [3]]
      (by decide)
  have hdelivers : byteReader.Delivers id := by
    intro s size hsize
    cases s with
    | nil => exact ⟨[], some eof, [], rfl, rfl, Nat.zero_le _, nofun, fun _ => rfl⟩
    | cons b rest => exact ⟨[b], none, rest, rfl, rfl, hsize, fun _ => List.cons_ne_nil _ _,
        fun h => absurd rfl h⟩
  exact ⟨stream, hwrite, (hread _ byteReader id (stream.take 10) 10 hdelivers rfl).2⟩

end Bpc.Wgshim
