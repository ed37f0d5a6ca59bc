/-
  CANONICAL RECORD PATHS as the request handlers build them.

  For a name without a slash the path is the canonical key (`recordPath_plain`), the state machine
  stores the record under it (`stable_recordKey`), and keys differ (`recordKey_inj`).
-/
import Bpc.Deploy.Python

namespace Bpc.Deploy

open SlashPath Controlplane

/-! ## Directories and keys -/

/-- The directories of canonical records that the modelled handlers use. -/
inductive Dir where
  | users
  | usernames
  | identityAccess
  | refresh
  | devices
  | deviceAddresses
  | devicePublicKeys
  | access
  | p2pDelivery
  | revocations
  | nodeJoin
  | nodeJoinUsed
  | nodes
  | nodePublicKeys
  | nodeCredentials
  | routes
  | topologyLinks
  | controllers
  deriving DecidableEq, Repr

/-- The components below the state root. -/
def Dir.parts : Dir → List Str
  | users => ["control", "identity", "users"]
  | usernames => ["control", "identity", "usernames"]
  | identityAccess => ["control", "identity", "access"]
  | refresh => ["control", "identity", "refresh"]
  | devices => ["control", "devices"]
  | deviceAddresses => ["control", "device-addresses"]
  | devicePublicKeys => ["control", "device-public-keys"]
  | access => ["control", "access"]
  | p2pDelivery => ["control", "p2p-delivery"]
  | revocations => ["control", "revocations"]
  | nodeJoin => ["control", "node-join"]
  | nodeJoinUsed => ["control", "node-join-used"]
  | nodes => ["control", "nodes"]
  | nodePublicKeys => ["control", "node-public-keys"]
  | nodeCredentials => ["control", "node-credentials"]
  | routes => ["control", "routes"]
  | topologyLinks => ["control", "topology", "links"]
  | controllers => ["cluster", "controllers"]

/-- The path of a directory. -/
def Dir.path (d : Dir) : Str := join d.parts

/-- The suffix of a record. -/
def jsonSuffix : Str := ".json"

/-- The canonical key of a record. -/
def recordKey (d : Dir) (name : Str) : Str := d.path ++ '/' :: (name ++ jsonSuffix)

/-- `root / … / f"{name}.json"`; an absolute component replaces the rest. -/
def recordPath (d : Dir) (name : Str) : Str :=
  if name.head? = some '/' then name ++ jsonSuffix else recordKey d name

/-- `canonical_relative`, on paths written relative to the state root. -/
def canonicalRelative (path : Str) : Except PyError Str :=
  let relative := clean path
  if path.head? = some '/' ∨ relative = dotdot ∨ ("../" : Str).isPrefixOf relative then
    .error (.controlState ("path escapes BPC state root: " ++ path) 500)
  else .ok relative

theorem recordPath_plain (d : Dir) {name : Str} (h : '/' ∉ name) :
    recordPath d name = recordKey d name := by
  unfold recordPath
  rw [if_neg]
  intro hhead
  exact h (List.mem_of_mem_head? hhead)

theorem join_concat {parts : List Str} (hne : parts ≠ []) (last : Str) :
    join (parts ++ [last]) = join parts ++ '/' :: last := by
  induction parts with
  | nil => exact absurd rfl hne
  | cons p rest ih =>
    cases rest with
    | nil => simp [join, List.intercalate_cons_cons]
    | cons q rest =>
      have hrest : join (q :: (rest ++ [last])) = join (q :: rest) ++ '/' :: last :=
        ih (List.cons_ne_nil q rest)
      simp only [join, List.cons_append, List.intercalate_cons_cons] at hrest ⊢
      rw [hrest]
      simp

theorem recordKey_eq_join (d : Dir) (name : Str) :
    recordKey d name = join (d.parts ++ [name ++ jsonSuffix]) := by
  have hne : d.parts ≠ [] := by cases d <;> exact List.cons_ne_nil _ _
  exact (join_concat hne _).symm

theorem normalName_record {name : Str} (h : '/' ∉ name) : NormalName (name ++ jsonSuffix) := by
  refine ⟨by simp [jsonSuffix], ?_, ?_, ?_⟩
  · intro hmem
    obtain hmem | hmem := List.mem_append.mp hmem
    · exact h hmem
    · exact absurd hmem (by decide)
  · intro heq
    have hlen := congrArg List.length heq
    simp [jsonSuffix] at hlen
  · intro heq
    have hlen := congrArg List.length heq
    simp [jsonSuffix, dotdot] at hlen

theorem normalName_parts (d : Dir) {name : Str} (h : '/' ∉ name) :
    ∀ n ∈ d.parts ++ [name ++ jsonSuffix], NormalName n := by
  have hdir : ∀ n ∈ d.parts, NormalName n := by cases d <;> decide
  intro n hn
  obtain hn | hn := List.mem_append.mp hn
  · exact hdir n hn
  · rw [List.mem_singleton.mp hn]
    exact normalName_record h

/-- **Keys determine their directory and name.** -/
theorem recordKey_inj {d d' : Dir} {name name' : Str} (h : '/' ∉ name) (h' : '/' ∉ name')
    (heq : recordKey d name = recordKey d' name') : d = d' ∧ name = name' := by
  rw [recordKey_eq_join, recordKey_eq_join] at heq
  have hsplit := congrArg (List.splitOn '/') heq
  rw [splitOn_join (by simp) fun n hn => (normalName_parts d h n hn).2.1,
    splitOn_join (by simp) fun n hn => (normalName_parts d' h' n hn).2.1] at hsplit
  obtain ⟨hparts, hlast⟩ := List.append_inj' hsplit rfl
  have hdir : ∀ a b : Dir, a.parts = b.parts → a = b := by
    intro a b
    cases a <;> cases b <;> decide
  refine ⟨hdir d d' hparts, ?_⟩
  exact List.append_cancel_right (List.cons.inj hlast).1

theorem clean_recordKey (d : Dir) {name : Str} (h : '/' ∉ name) :
    clean (recordKey d name) = recordKey d name := by
  rw [recordKey_eq_join]
  exact clean_join (by simp) (normalName_parts d h)

theorem isReplicated_recordKey (d : Dir) (name : Str) : isReplicated (recordKey d name) = true := by
  have hpre : d.path ++ ['/'] ∈ replicatedPrefixes := by cases d <;> decide
  unfold isReplicated
  rw [Bool.or_eq_true, List.any_eq_true]
  right
  refine ⟨d.path ++ ['/'], hpre, ?_⟩
  rw [Bool.and_eq_true, List.isPrefixOf_iff_prefix, decide_eq_true_iff]
  constructor
  · exact ⟨name ++ jsonSuffix, by simp [recordKey]⟩
  · simp [recordKey, jsonSuffix]

theorem trimSpace_eq_self {s : Str} (hhead : ∀ c, s.head? = some c → isSpace c = false)
    (hlast : ∀ c, s.getLast? = some c → isSpace c = false) : trimSpace s = s := by
  have hleft : s.dropWhile isSpace = s := by
    cases s with
    | nil => rfl
    | cons c cs =>
      refine List.dropWhile_cons_of_neg ?_
      rw [hhead c rfl]
      exact Bool.false_ne_true
  unfold trimSpace
  rw [hleft, List.rdropWhile_eq_self_iff]
  intro hne
  rw [hlast _ (List.getLast?_eq_some_getLast hne)]
  exact Bool.false_ne_true

theorem head_recordKey (d : Dir) (name : Str) : (recordKey d name).head? = some 'c' := by
  cases d <;> rfl

theorem getLast_recordKey (d : Dir) (name : Str) : (recordKey d name).getLast? = some 'n' := by
  have hend : recordKey d name = (d.path ++ '/' :: (name ++ ".jso")) ++ ['n'] := by
    simp [recordKey, jsonSuffix]
  rw [hend, List.getLast?_concat]

/-- **The state machine stores a record under the handlers' key.** -/
theorem stable_recordKey (d : Dir) {name : Str} (h : '/' ∉ name) :
    StablePath (recordKey d name) := by
  have htrim : trimSpace (recordKey d name) = recordKey d name := by
    refine trimSpace_eq_self (fun c hc => ?_) fun c hc => ?_
    · rw [head_recordKey] at hc
      obtain rfl := Option.some.inj hc
      decide
    · rw [getLast_recordKey] at hc
      obtain rfl := Option.some.inj hc
      decide
  have hcleaned : trimPrefix "./" (clean (trimSpace (recordKey d name))) = recordKey d name := by
    rw [htrim, trimPrefix_clean, clean_recordKey d h]
  unfold StablePath normalizeReplicatedPath
  simp only [hcleaned, isReplicated_recordKey, if_true]
  rw [if_neg]
  have hhead := head_recordKey d name
  rintro (heq | heq | hpre | habs)
  · rw [heq] at hhead; exact absurd hhead (by decide)
  · rw [heq] at hhead; cases hhead
  · obtain ⟨t, ht⟩ := List.isPrefixOf_iff_prefix.mp hpre
    rw [← ht] at hhead
    exact absurd hhead (by simp)
  · rw [habs] at hhead; exact absurd hhead (by decide)

theorem canonicalRelative_recordKey (d : Dir) {name : Str} (h : '/' ∉ name) :
    canonicalRelative (recordKey d name) = .ok (recordKey d name) := by
  unfold canonicalRelative
  simp only [clean_recordKey d h]
  rw [if_neg]
  have hhead := head_recordKey d name
  rintro (habs | heq | hpre)
  · rw [habs] at hhead; exact absurd hhead (by decide)
  · rw [heq] at hhead; exact absurd hhead (by decide)
  · obtain ⟨t, ht⟩ := List.isPrefixOf_iff_prefix.mp hpre
    rw [← ht] at hhead
    exact absurd hhead (by simp)

end Bpc.Deploy
