/-
  THE RECOVERY DIGEST — what `snapshotChecksum` says about the state it was computed from.

  1. **A path may hold a NUL and a newline**, so ONE entry can have the text of two
     (`digest_merges_entries`).
  2. **Otherwise the digest determines the state** (`digest_determines_state`).
-/
import Bpc.Lib.Records
import Bpc.Controlplane.Snapshot

namespace Bpc.Controlplane

open SlashPath

variable {Payload Data B : Type}

/-! ## The text as records -/

/-- What `hex.EncodeToString` writes. -/
def IsHexText (n : Nat) (text : Str) : Prop :=
  text.length = n ∧ ∀ c ∈ text, c ∈ "0123456789abcdef".toList

instance (n : Nat) (text : Str) : Decidable (IsHexText n text) :=
  inferInstanceAs (Decidable (_ ∧ _))

/-- The layout of the text under the digest. -/
def entryRecords : Records Char where
  sep := Char.ofNat 0
  stop := '\n'
  IsTag := IsHexText 64
  tagLength := 64
  length_tag := fun h => h.1
  sep_notMem_tag := fun h hmem => absurd (h.2 _ hmem) (by decide)
  sep_ne_stop := by decide

/-- A path without a "NUL, 64 hexadecimal digits, newline" inside. -/
abbrev ClearPath (path : Str) : Prop := entryRecords.Clear path

theorem snapshotText_eq (C : Codec Payload Data) (schema revision : UInt64)
    (entries : Bucket Data) :
    snapshotText C schema revision entries =
      "schema=" ++ decimal schema ++ "\nrevision=" ++ decimal revision ++ ['\n'] ++
        entryRecords.text (entries.toList.map fun e => (e.1, C.sha256Hex e.2)) := by
  unfold snapshotText Records.text
  rw [List.flatMap_map]
  simp [entryRecords]

/-! ## Keys of a reachable bucket -/

/-- Every put path of the accepted mutations of a log is clear. -/
def ClearLogs (C : Codec Payload Data) (logs : List (Nat × Payload)) : Prop :=
  ∀ log ∈ logs, ∀ command ops, decodeCommand C log.2 = .ok (command, ops) →
    ∀ op ∈ ops, op.op = .put → ClearPath op.path

theorem clearKeys_of_applyAll {C : Codec Payload Data} {logs : List (Nat × Payload)}
    (h : ClearLogs C logs) :
    ∀ key, (applyAll C Store.empty logs).canonical[key]? ≠ none → ClearPath key := by
  refine applyAll_keeps
    (P := fun bucket : Bucket Data => ∀ key, bucket[key]? ≠ none → ClearPath key) ?_ ?_
  · intro log hlog content command ops content' hdec hc hkeys key hkey
    obtain ⟨v, hv⟩ := Option.ne_none_iff_exists'.mp hkey
    rw [hc.canonical] at hv
    obtain hold | ⟨op, hop, hput, rfl, -⟩ := key_of_applyOps hv
    · exact hkeys key (by rw [hold]; exact Option.some_ne_none v)
    · exact h log hlog command ops hdec op hop hput
  · intro key hkey
    exact absurd (SortedMap.get_empty key) hkey

/-! ## Reading the digest back -/

theorem decimal_schema {schema schema' : UInt64} {rest rest' : Str}
    (h : schema ≤ controlSchemaVersion) (h' : schema' ≤ controlSchemaVersion)
    (heq : decimal schema ++ rest = decimal schema' ++ rest') :
      schema = schema' ∧ rest = rest' := by
  have hsmall : ∀ s : UInt64, s ≤ controlSchemaVersion → s = 0 ∨ s = 1 := by
    intro s hs
    have hnat : s.toNat ≤ 1 := UInt64.le_iff_toNat_le.mp hs
    obtain hzero | hone : s.toNat = 0 ∨ s.toNat = 1 := by omega
    · exact Or.inl (UInt64.toNat_inj.mp hzero)
    · exact Or.inr (UInt64.toNat_inj.mp hone)
  have h0 : decimal 0 = ['0'] := rfl
  have h1 : decimal 1 = ['1'] := rfl
  obtain rfl | rfl := hsmall schema h <;> obtain rfl | rfl := hsmall schema' h'
  · exact ⟨rfl, List.append_cancel_left heq⟩
  · rw [h0, h1] at heq
    exact absurd (List.cons.inj heq).1 (by decide)
  · rw [h0, h1] at heq
    exact absurd (List.cons.inj heq).1 (by decide)
  · exact ⟨rfl, List.append_cancel_left heq⟩

/-- Entries that agree in keys and digests are equal. -/
theorem entries_eq {C : Codec Payload Data} {entries entries' : Bucket Data}
    (hhash : ∀ (p : Str) (d : Data), entries[p]? = some d → ∀ d', entries'[p]? = some d' →
      C.sha256Hex d = C.sha256Hex d' → d = d')
    (heq : (entries.toList.map fun e => (e.1, C.sha256Hex e.2)) =
      entries'.toList.map fun e => (e.1, C.sha256Hex e.2)) : entries = entries' := by
  have hstep : ∀ {a b : Bucket Data}, ((a.toList.map fun e => (e.1, C.sha256Hex e.2)) =
      b.toList.map fun e => (e.1, C.sha256Hex e.2)) → ∀ {p : Str} {d : Data}, a[p]? = some d →
      ∃ d', b[p]? = some d' ∧ C.sha256Hex d' = C.sha256Hex d := by
    intro a b hab p d hd
    have hmem : (p, C.sha256Hex d) ∈ b.toList.map fun e => (e.1, C.sha256Hex e.2) := by
      rw [← hab]
      exact List.mem_map.mpr ⟨(p, d), SortedMap.mem_toList.mpr hd, rfl⟩
    obtain ⟨⟨q, d'⟩, hq, hpair⟩ := List.mem_map.mp hmem
    obtain ⟨rfl, hdigest⟩ := Prod.mk.inj hpair
    exact ⟨d', SortedMap.mem_toList.mp hq, hdigest⟩
  refine SortedMap.ext_get fun p => ?_
  cases hd : entries[p]? with
  | some d =>
    obtain ⟨d', hd', hdigest⟩ := hstep heq hd
    rw [hd', hhash p d hd d' hd' hdigest.symm]
  | none =>
    cases hd' : entries'[p]? with
    | none => rfl
    | some d' =>
      obtain ⟨d, hsome, -⟩ := hstep heq.symm hd'
      rw [hd] at hsome
      cases hsome

/-- **Equal digests mean equal state**, if the put paths are clear. -/
theorem digest_determines_state (C : Codec Payload Data) (J : SnapshotJson Data B)
    (hhex : ∀ d, IsHexText 64 (C.sha256Hex d)) (htext : Function.Injective J.sha256Text)
    (logs logs' : List (Nat × Payload)) (hlogs : ClearLogs C logs) (hlogs' : ClearLogs C logs')
    (hhash : ∀ (p : Str) (d : Data), (applyAll C Store.empty logs).canonical[p]? = some d →
      ∀ d', (applyAll C Store.empty logs').canonical[p]? = some d' →
        C.sha256Hex d = C.sha256Hex d' → d = d')
    (revision : UInt64)
    (heq : snapshotChecksum C J (applyAll C Store.empty logs).schema revision
        (applyAll C Store.empty logs).canonical =
      snapshotChecksum C J (applyAll C Store.empty logs').schema revision
        (applyAll C Store.empty logs').canonical) :
    (applyAll C Store.empty logs).schema = (applyAll C Store.empty logs').schema ∧
      (applyAll C Store.empty logs).canonical = (applyAll C Store.empty logs').canonical := by
  have hfloor : (Store.empty : Store Data).schema ≤ controlSchemaVersion ∧
      (Store.empty : Store Data).revisionFloor = 0 := ⟨show (0 : UInt64) ≤ 1 by decide, rfl⟩
  have hschema := (schema_floor_of_applyAll C logs hfloor).1
  have hschema' := (schema_floor_of_applyAll C logs' hfloor).1
  have hclear := clearKeys_of_applyAll hlogs
  have hclear' := clearKeys_of_applyAll hlogs'
  -- from here on only the two buckets and schemas matter
  generalize applyAll C Store.empty logs = s at *
  generalize applyAll C Store.empty logs' = s' at *
  have hrecords : ∀ store : Store Data, (∀ key, store.canonical[key]? ≠ none → ClearPath key) →
      ∀ r ∈ store.canonical.toList.map fun e => (e.1, C.sha256Hex e.2),
        entryRecords.Clear r.1 ∧ entryRecords.IsTag r.2 := by
    intro store hkeys r hr
    obtain ⟨⟨key, d⟩, hmem, rfl⟩ := List.mem_map.mp hr
    refine ⟨hkeys key ?_, hhex d⟩
    rw [SortedMap.mem_toList.mp hmem]
    exact Option.some_ne_none d
  have hsame : snapshotText C s.schema revision s.canonical =
      snapshotText C s'.schema revision s'.canonical := htext heq
  rw [snapshotText_eq, snapshotText_eq] at hsame
  simp only [List.append_assoc] at hsame
  obtain ⟨hschemas, hrest⟩ := decimal_schema hschema hschema' (List.append_cancel_left hsame)
  have hentries := List.append_cancel_left
    (List.append_cancel_left (List.append_cancel_left hrest))
  exact ⟨hschemas, entries_eq hhash
    (Records.text_inj (hrecords s hclear) (hrecords s' hclear') hentries)⟩

/-! ## Two logs with one digest -/

/-- Two values, with digests of 64 zeros or ones. -/
def bitCodec : Codec (Mutation Bool) Bool where
  unmarshalMutation command := .ok command
  unmarshalRoute _ := none
  unmarshalNode _ := none
  sha256Hex b := List.replicate 64 (if b then '1' else '0')
  dataLen _ := 1

/-- Two envelopes are one if their bytes are. -/
def bitJson : SnapshotJson Bool (Envelope Bool) := envelopeJson fun _ => "c"

theorem bitCodec_hex (b : Bool) : IsHexText 64 (bitCodec.sha256Hex b) := by
  refine ⟨List.length_replicate, fun c hc => ?_⟩
  obtain rfl := List.eq_of_mem_replicate hc
  cases b <;> decide

theorem bitCodec_injective : Function.Injective bitCodec.sha256Hex := by decide

/-- A put of one bit. -/
def bitCommand (path : Str) (b : Bool) : Mutation Bool where
  version := commandVersion
  id := "m"
  kind := "Put"
  operations := [⟨.put, path, b, false, false, []⟩]
  revisionMinimum := 0

/-- Two puts. -/
def pairLogs : List (Nat × Mutation Bool) :=
  [(1, bitCommand "control/devices/a" true), (2, bitCommand "control/devices/b" false)]

/-- One Device, whose path holds the group of the first of the two. -/
def mergedPath : Str :=
  "control/devices/a" ++
    Char.ofNat 0 :: (bitCodec.sha256Hex true ++ '\n' :: "control/devices/b")

/-- One put, under the merged path. -/
def mergedLogs : List (Nat × Mutation Bool) := [(1, bitCommand mergedPath false)]

theorem pairLogs_entries : (applyAll bitCodec Store.empty pairLogs).canonical.toList =
    [("control/devices/a".toList, true), ("control/devices/b".toList, false)] := by
  decide +kernel

theorem mergedLogs_entries : (applyAll bitCodec Store.empty mergedLogs).canonical.toList =
    [(mergedPath, false)] := by
  decide +kernel

/-- The two puts in the other order. -/
def swappedLogs : List (Nat × Mutation Bool) :=
  [(1, bitCommand "control/devices/b" false), (2, bitCommand "control/devices/a" true)]

theorem clear_of_bitCommand {path : Str} {b : Bool} (hstable : StablePath path)
    (hnul : Char.ofNat 0 ∉ path) {command : Mutation Bool} {ops : List (Operation Bool)}
    (hdec : decodeCommand bitCodec (bitCommand path b) = .ok (command, ops)) :
    ∀ op ∈ ops, op.op = .put → ClearPath op.path := by
  have hops : normalizeOps (bitCommand path b).operations =
      .ok (bitCommand path b).operations := by
    show normalizeOps [⟨.put, path, b, false, false, []⟩] = _
    rw [normalizeOps, show normalizeReplicatedPath path = .ok path from hstable]
    rfl
  have hdecode : bitCodec.unmarshalMutation (bitCommand path b) = .ok (bitCommand path b) := rfl
  have hheader : checkHeader (bitCommand path b) = .ok () := rfl
  unfold decodeCommand at hdec
  simp only [hdecode, hheader, hops] at hdec
  obtain ⟨-, rfl⟩ := Prod.mk.inj (Except.ok.inj hdec)
  intro op hop _
  obtain rfl := List.mem_singleton.mp hop
  exact Records.clear_of_notMem hnul

theorem clearLogs_of_pair {n m : Nat} {p q : Str} {b c : Bool} (hp : StablePath p)
    (hq : StablePath q) (hnul : Char.ofNat 0 ∉ p) (hnul' : Char.ofNat 0 ∉ q) :
    ClearLogs bitCodec [(n, bitCommand p b), (m, bitCommand q c)] := by
  intro log hlog command ops hdec
  obtain rfl | hlog := List.mem_cons.mp hlog
  · exact clear_of_bitCommand hp hnul hdec
  · obtain rfl := List.mem_singleton.mp hlog
    exact clear_of_bitCommand hq hnul' hdec

/-- The order of two puts does not show in the digest. -/
theorem digest_determines_pair :
    snapshotChecksum bitCodec bitJson (applyAll bitCodec Store.empty pairLogs).schema 2
        (applyAll bitCodec Store.empty pairLogs).canonical =
      snapshotChecksum bitCodec bitJson (applyAll bitCodec Store.empty swappedLogs).schema 2
        (applyAll bitCodec Store.empty swappedLogs).canonical ∧
    (applyAll bitCodec Store.empty pairLogs).schema =
        (applyAll bitCodec Store.empty swappedLogs).schema ∧
      (applyAll bitCodec Store.empty pairLogs).canonical =
        (applyAll bitCodec Store.empty swappedLogs).canonical := by
  have hdigest : snapshotChecksum bitCodec bitJson (applyAll bitCodec Store.empty pairLogs).schema 2
        (applyAll bitCodec Store.empty pairLogs).canonical =
      snapshotChecksum bitCodec bitJson (applyAll bitCodec Store.empty swappedLogs).schema 2
        (applyAll bitCodec Store.empty swappedLogs).canonical := by
    decide +kernel
  refine ⟨hdigest, digest_determines_state bitCodec bitJson bitCodec_hex Function.injective_id
    pairLogs swappedLogs ?_ ?_ (fun p d _ d' _ heq => bitCodec_injective heq) 2 hdigest⟩
  · exact clearLogs_of_pair (by decide) (by decide) (by decide) (by decide)
  · exact clearLogs_of_pair (by decide) (by decide) (by decide) (by decide)

/-- **One entry with the digest of two.** -/
theorem digest_merges_entries :
    (∀ b, IsHexText 64 (bitCodec.sha256Hex b)) ∧ Function.Injective bitCodec.sha256Hex ∧
    Function.Injective bitJson.sha256Text ∧
    (∀ revision, snapshotChecksum bitCodec bitJson (applyAll bitCodec Store.empty pairLogs).schema
        revision (applyAll bitCodec Store.empty pairLogs).canonical =
      snapshotChecksum bitCodec bitJson (applyAll bitCodec Store.empty mergedLogs).schema revision
        (applyAll bitCodec Store.empty mergedLogs).canonical) ∧
    (applyAll bitCodec Store.empty pairLogs).canonical ≠
      (applyAll bitCodec Store.empty mergedLogs).canonical := by
  refine ⟨bitCodec_hex, bitCodec_injective, Function.injective_id, fun revision => ?_,
    fun heq => ?_⟩
  · have hschema : (applyAll bitCodec Store.empty pairLogs).schema =
        (applyAll bitCodec Store.empty mergedLogs).schema := by decide +kernel
    show snapshotText _ _ _ _ = snapshotText _ _ _ _
    rw [snapshotText_eq, snapshotText_eq, pairLogs_entries, mergedLogs_entries, hschema]
    exact congrArg _ (Records.text_merged (M := entryRecords) _
      (bitCodec.sha256Hex true) _ _ []).symm
  · have hlists := congrArg (fun bucket : Bucket Bool => bucket.toList.length) heq
    simp only [pairLogs_entries, mergedLogs_entries] at hlists
    exact absurd hlists (by decide)

end Bpc.Controlplane
