/-
  RAFT LOG ENTRIES IN THE STORE — `encodeRaftLog` and `decodeRaftLog` (store.go).

  1. **No panic** — every access stays inside the bytes (`decodeRaftLog_isSome`).
  2. **Round trip** — everything comes back but the time (`decodeRaftLog_encode`): the stamp 0
     means "no time", but the stamp of Go's zero time is NOT 0.
-/
import Bpc.Lib.BigEndian
import Bpc.Lib.GoTime
import Bpc.Lib.Slice

namespace Bpc.Controlplane

open Slice (At at_start byteAt slice)

/-! ## The program -/

/-- `raft.Log`. -/
structure Log where
  index : UInt64
  term : UInt64
  type : UInt8
  data : List UInt8
  extensions : List UInt8
  appendedAt : Int
  deriving DecidableEq

/-- `encodeRaftLog`. -/
def encodeRaftLog (log : Log) : List UInt8 :=
  1 :: (BigEndian.put 8 log.index.toNat ++ (BigEndian.put 8 log.term.toNat ++ log.type ::
    (BigEndian.put 8 (Time.unixNano log.appendedAt % 2 ^ 64).toNat ++
      (BigEndian.put 8 log.data.length ++ (BigEndian.put 8 log.extensions.length ++
        (log.data ++ log.extensions))))))

/-- The end of `decodeRaftLog`: data and extensions. -/
def decodeRest (raw : List UInt8) (dataLen extLen : Nat) (out : Log) :
    Option (Log × Except String Unit) :=
  if raw.length - 42 < dataLen then some (out, .error "invalid raft log data length")
  else do
    let data ← slice raw 42 (42 + dataLen)
    let out := { out with data }
    if raw.length - (42 + dataLen) < extLen then
      some (out, .error "invalid raft log extension length")
    else do
      let extensions ← slice raw (42 + dataLen) (42 + dataLen + extLen)
      some ({ out with extensions }, .ok ())

/-- `decodeRaftLog`: what becomes of `out`, and the error. -/
def decodeRaftLog (raw : List UInt8) (out : Log) : Option (Log × Except String Unit) :=
  if raw.length < 42 then some (out, .error "invalid persisted raft log")
  else do
    let version ← byteAt raw 0
    if version ≠ 1 then some (out, .error "invalid persisted raft log")
    else do
      let index ← slice raw 1 (1 + 8)
      let term ← slice raw 9 (9 + 8)
      let type ← byteAt raw 17
      let stamp ← slice raw 18 (18 + 8)
      let ns := (BigEndian.value stamp : Int).bmod (2 ^ 64)
      let dataLen ← slice raw 26 (26 + 8)
      let extLen ← slice raw 34 (34 + 8)
      decodeRest raw (BigEndian.value dataLen) (BigEndian.value extLen)
        { out with
          index := (BigEndian.value index).toUInt64
          term := (BigEndian.value term).toUInt64
          type
          appendedAt := if ns ≠ 0 then Time.ofUnixNano ns else out.appendedAt }

/-! ## Every access stays inside -/

theorem slice_eq {raw : List UInt8} {i j : Nat} (hij : i ≤ j) (hj : j ≤ raw.length) :
    slice raw i j = some ((raw.drop i).take (j - i)) := if_pos ⟨hij, hj⟩

theorem byteAt_eq {raw : List UInt8} {i : Nat} (h : i < raw.length) : byteAt raw i = some raw[i] :=
  List.getElem?_eq_getElem h

theorem decodeRest_isSome (raw : List UInt8) (dataLen extLen : Nat) (out : Log)
    (h : 42 ≤ raw.length) : (decodeRest raw dataLen extLen out).isSome := by
  unfold decodeRest
  split
  · rfl
  rw [slice_eq (by omega) (by omega), Option.bind_eq_bind, Option.bind_some]
  dsimp only
  split
  · rfl
  rw [slice_eq (by omega) (by omega)]
  rfl

/-- **No byte string makes the decoder read outside it.** -/
theorem decodeRaftLog_isSome (raw : List UInt8) (out : Log) : (decodeRaftLog raw out).isSome := by
  unfold decodeRaftLog
  split
  · rfl
  rw [byteAt_eq (i := 0) (by omega), Option.bind_eq_bind, Option.bind_some]
  split
  · rfl
  rw [byteAt_eq (i := 17) (by omega), slice_eq (i := 1) (by omega) (by omega),
    slice_eq (i := 9) (by omega) (by omega), slice_eq (i := 18) (by omega) (by omega),
    slice_eq (i := 26) (by omega) (by omega), slice_eq (i := 34) (by omega) (by omega)]
  exact decodeRest_isSome _ _ _ _ (by omega)

/-! ## The round trip -/

/-- The time that the reader of a stamp is left with. -/
def timeRead (stored old : Int) : Int :=
  if Time.unixNano stored ≠ 0 then Time.ofUnixNano (Time.unixNano stored) else old

theorem value_put_of_lt {n : Nat} (h : n < 2 ^ 64) :
    BigEndian.value (BigEndian.put 8 n) = n := by
  rw [BigEndian.value_put]
  omega

theorem value_put_word (n : UInt64) :
    (BigEndian.value (BigEndian.put 8 n.toNat)).toUInt64 = n := by
  rw [value_put_of_lt n.toNat_lt]
  exact UInt64.ofNat_toNat

theorem value_put_stamp (t : Int) :
    (BigEndian.value (BigEndian.put 8 (Time.unixNano t % 2 ^ 64).toNat) : Int).bmod (2 ^ 64) =
      Time.unixNano t := by
  rw [value_put_of_lt (by omega), Int.toNat_of_nonneg (by omega)]
  show (Time.unixNano t % (2 ^ 64 : Nat)).bmod (2 ^ 64) = _
  rw [Int.emod_bmod, Time.unixNano, Int.bmod_bmod]

variable (log : Log) (hsize : log.data.length + log.extensions.length < 2 ^ 62)
include hsize

/-- **Everything but the time comes back.** -/
theorem decodeRaftLog_encode (out : Log) :
    decodeRaftLog (encodeRaftLog log) out =
      some ({ log with appendedAt := timeRead log.appendedAt out.appendedAt }, .ok ()) := by
  have hlength : (encodeRaftLog log).length =
      42 + (log.data.length + log.extensions.length) := by
    simp only [encodeRaftLog, List.length_cons, List.length_append, BigEndian.length_put]
    omega
  obtain ⟨hversion, h1⟩ := (at_start (encodeRaftLog log)).byte
  obtain ⟨hindex, h9⟩ := h1.next (BigEndian.length_put 8 _)
  obtain ⟨hterm, h17⟩ := h9.next (BigEndian.length_put 8 _)
  obtain ⟨htype, h18⟩ := h17.byte
  obtain ⟨hstamp, h26⟩ := h18.next (BigEndian.length_put 8 _)
  obtain ⟨hdataLen, h34⟩ := h26.next (BigEndian.length_put 8 _)
  obtain ⟨hextLen, h42⟩ := h34.next (BigEndian.length_put 8 _)
  obtain ⟨hdata, hend⟩ := h42.next (n := log.data.length) rfl
  have hextensions := (hend.slice (n := log.extensions.length) (Nat.le_refl _)).1
  rw [List.take_length] at hextensions
  unfold decodeRaftLog
  rw [if_neg (by omega), hversion, hindex, hterm, htype, hstamp, hdataLen, hextLen]
  simp only [Option.bind_eq_bind, Option.bind_some, ne_eq, not_true_eq_false, if_false]
  rw [value_put_of_lt (by omega), value_put_of_lt (by omega), value_put_word, value_put_word,
    value_put_stamp]
  unfold decodeRest
  rw [if_neg (by omega), hdata]
  simp only [Option.bind_eq_bind, Option.bind_some]
  rw [if_neg (by omega), hextensions]
  rfl

/-- **When the store returns what was stored**: not for the zero time, and for the first instant of
    1970 only if the entry passed in holds it already.  No bytes make it panic. -/
theorem stored_log_returns_iff (out : Log)
    (htime : log.appendedAt = Time.zero ∨
      -2 ^ 63 ≤ log.appendedAt - Time.epoch ∧ log.appendedAt - Time.epoch < 2 ^ 63) :
    (decodeRaftLog (encodeRaftLog log) out = some (log, .ok ()) ↔
      log.appendedAt ≠ Time.zero ∧
        (log.appendedAt = Time.epoch → out.appendedAt = Time.epoch)) ∧
    ∀ (raw : List UInt8) (into : Log), (decodeRaftLog raw into).isSome := by
  refine ⟨?_, decodeRaftLog_isSome⟩
  have hread : decodeRaftLog (encodeRaftLog log) out = some (log, .ok ()) ↔
      timeRead log.appendedAt out.appendedAt = log.appendedAt := by
    rw [decodeRaftLog_encode log hsize]
    constructor
    · intro h
      exact congrArg (fun r => r.1.appendedAt) (Option.some.inj h)
    · intro h
      rw [h]
  rw [hread]
  rcases htime with hzero | ⟨hleast, hmost⟩
  · rw [hzero]
    refine iff_of_false ?_ (fun h => h.1 rfl)
    -- the stamp is the low 64 bits of the nanoseconds from 1970 back to year 1
    have hstamp : Time.unixNano Time.zero = -6795364578871345152 := by decide +kernel
    unfold timeRead
    rw [hstamp, if_pos (by decide)]
    decide +kernel
  · have hstamp : Time.unixNano log.appendedAt = log.appendedAt - Time.epoch :=
      Int.bmod_eq_of_le (by omega) (by omega)
    have hyears : Time.epoch = 62135596800000000000 := rfl
    have hzero : Time.zero = 0 := rfl
    unfold timeRead Time.ofUnixNano
    rw [hstamp]
    split <;> omega

omit hsize

/-- **An entry without a time** comes back with a time in 1754. -/
theorem stored_log_loses_zero_time :
    decodeRaftLog (encodeRaftLog ⟨7, 2, 0, [1], [], Time.zero⟩) ⟨0, 0, 0, [], [], Time.zero⟩ =
        some (⟨7, 2, 0, [1], [], Time.epoch - 6795364578871345152⟩, .ok ()) ∧
      Time.epoch - 6795364578871345152 ≠ Time.zero := by
  decide +kernel

/-- An entry appended one nanosecond after 1970 began. -/
theorem stored_log_returns_nanosecond :
    decodeRaftLog (encodeRaftLog ⟨7, 2, 0, [1], [], Time.epoch + 1⟩) ⟨6, 2, 0, [], [], 0⟩ =
      some (⟨7, 2, 0, [1], [], Time.epoch + 1⟩, .ok ()) :=
  (stored_log_returns_iff ⟨7, 2, 0, [1], [], Time.epoch + 1⟩ (by decide) _
    (.inr (by decide))).1.mpr (by decide)

end Bpc.Controlplane
