/-
  CANONICAL PATHS — `NormalizeReplicatedPath` (fsm.go).

  The normaliser trims BEFORE it cleans, so it is not idempotent: `StablePath` are the paths on
  which it is.  Every accepted path is a joined list of plain names (`normalize_names`).
-/
import Bpc.Lib.SlashPath

namespace Bpc.Controlplane

open SlashPath

/-! ## The normaliser -/

/-- `replicatedPrefixes`. -/
def replicatedPrefixes : List Str :=
  ["control/identity/users/", "control/identity/usernames/", "control/identity/access/",
   "control/identity/refresh/", "control/devices/", "control/device-addresses/",
   "control/device-public-keys/", "control/access/", "control/p2p-delivery/",
   "control/node-join/", "control/node-join-used/", "control/nodes/",
   "control/node-public-keys/", "control/node-credentials/", "control/routes/",
   "control/topology/links/", "control/revocations/", "cluster/controllers/"]

/-- `replicatedExact`. -/
def replicatedExact : List Str := ["cluster/cluster.json", "control/config.json"]

/-- `strings.TrimPrefix`. -/
def trimPrefix (pre s : Str) : Str := if pre.isPrefixOf s then s.drop pre.length else s

/-- One of the exact files, or strictly below a prefix. -/
def isReplicated (clean : Str) : Bool :=
  replicatedExact.contains clean ||
    replicatedPrefixes.any fun pre => pre.isPrefixOf clean && pre.length < clean.length

/-- `NormalizeReplicatedPath`.  `filepath.IsAbs` looks at the RAW path. -/
def normalizeReplicatedPath (path : Str) : Except Str Str :=
  let cleaned := trimPrefix "./" (clean (trimSpace path))
  if cleaned = ['.'] ∨ cleaned = [] ∨ ("../" : Str).isPrefixOf cleaned ∨ path.head? = some '/' then
    .error "invalid canonical path"
  else if isReplicated cleaned then .ok cleaned
  else .error ("path is not replicated canonical state: " ++ cleaned)

/-- A path the normaliser maps to itself. -/
def StablePath (path : Str) : Prop := normalizeReplicatedPath path = .ok path

instance : DecidableEq (Except Str Str)
  | .ok a, .ok b => decidable_of_iff (a = b) (by simp)
  | .error a, .error b => decidable_of_iff (a = b) (by simp)
  | .ok _, .error _ => isFalse (by simp)
  | .error _, .ok _ => isFalse (by simp)

instance (path : Str) : Decidable (StablePath path) :=
  inferInstanceAs (Decidable (normalizeReplicatedPath path = .ok path))

/-! ## What an accepted path looks like -/

theorem normalize_cases {path key : Str} (h : normalizeReplicatedPath path = .ok key) :
    key = trimPrefix "./" (clean (trimSpace path)) ∧ isReplicated key = true := by
  simp only [normalizeReplicatedPath] at h
  split at h
  · cases h
  · split at h
    · next hr => cases h; exact ⟨rfl, hr⟩
    · cases h

theorem head_of_isReplicated {key : Str} (h : isReplicated key = true) : key.head? = some 'c' := by
  simp only [isReplicated, Bool.or_eq_true, List.contains_iff_mem, List.any_eq_true,
    Bool.and_eq_true, List.isPrefixOf_iff_prefix] at h
  rcases h with h | ⟨pre, hpre, ⟨t, rfl⟩, -⟩
  · have hall : ∀ k ∈ replicatedExact, k.head? = some 'c' := by decide
    exact hall key h
  · have hall : ∀ p ∈ replicatedPrefixes, p.head? = some 'c' := by decide
    have hp := hall pre hpre
    cases pre with
    | nil => cases hp
    | cons c cs => simpa using hp

theorem first_of_join_dotSlash {parts : List Str} (hne : parts ≠ [])
    (hp : ∀ n ∈ parts, '/' ∉ n) (h : ("./" : Str) <+: join parts) :
    ∃ rest, parts = ['.'] :: rest := by
  obtain ⟨t, ht⟩ := h
  have hs : (join parts).splitOn '/' = ['.'] :: t.splitOn '/' := by
    rw [← ht]
    show (['.'] ++ '/' :: t).splitOn '/' = _
    exact List.splitOn_append_cons_self_of_not_mem (by simp) t
  rw [splitOn_join hne hp] at hs
  exact ⟨_, hs⟩

theorem trimPrefix_clean (p : Str) : trimPrefix "./" (clean p) = clean p := by
  have hno : ¬ ("./" : Str) <+: clean p := by
    intro hpre
    unfold clean at hpre
    split at hpre
    · obtain ⟨t, ht⟩ := hpre
      exact absurd (List.cons.inj ht).1 (by decide)
    · split at hpre
      · obtain ⟨t, ht⟩ := hpre
        exact absurd (congrArg List.length ht) (by simp)
      · next hne =>
        obtain ⟨dots, names, hs, hd, hn⟩ := cleanParts_shape p
        have hmem : ∀ n ∈ cleanParts p, '/' ∉ n ∧ n ≠ ['.'] := by
          intro n hn'
          rw [hs, List.mem_append] at hn'
          rcases hn' with hn' | hn'
          · rw [hd n hn']; decide
          · exact ⟨(hn n hn').2.1, (hn n hn').2.2.1⟩
        obtain ⟨rest, hrest⟩ := first_of_join_dotSlash hne (fun n hn' => (hmem n hn').1) hpre
        exact (hmem ['.'] (by rw [hrest]; exact List.mem_cons_self ..)).2 rfl
  rw [trimPrefix, if_neg (by simpa [List.isPrefixOf_iff_prefix] using hno)]

/-- **An accepted path is a joined list of plain names.** -/
theorem normalize_names {path key : Str} (h : normalizeReplicatedPath path = .ok key) :
    ∃ parts, parts ≠ [] ∧ (∀ n ∈ parts, NormalName n) ∧ key = join parts := by
  obtain ⟨hkey, hrep⟩ := normalize_cases h
  have hhead := head_of_isReplicated hrep
  rw [trimPrefix_clean] at hkey
  unfold clean at hkey
  split at hkey
  · -- a rooted path starts with a slash, not with `c`
    rw [hkey] at hhead
    exact absurd hhead (by simp)
  · split at hkey
    · rw [hkey] at hhead
      exact absurd hhead (by simp)
    · next hne =>
      refine ⟨cleanParts (trimSpace path), hne, ?_, hkey⟩
      obtain ⟨first, rest, hfr⟩ := List.exists_cons_of_ne_nil hne
      refine cleanParts_names hfr ?_
      -- a path that begins with `..` begins with a dot
      rintro rfl
      rw [hkey, hfr] at hhead
      cases rest with
      | nil => exact absurd hhead (by decide)
      | cons m ms => exact absurd hhead (by simp [join, List.intercalate_cons_cons, dotdot])

/-- The names on the way to a key. -/
def keyParts (key : Str) : List Str := key.splitOn '/'

theorem join_keyParts (key : Str) : join (keyParts key) = key := join_splitOn key

theorem keyParts_injective : Function.Injective keyParts := by
  intro a b h
  rw [← join_keyParts a, h, join_keyParts]

theorem keyParts_ne_nil (key : Str) : keyParts key ≠ [] := List.splitOn_ne_nil _ _

/-- The blank that trimming leaves before a slash. -/
example : normalizeReplicatedPath "control/devices/x /" = .ok "control/devices/x " := by decide
example : ¬ StablePath "control/devices/x " := by decide
example : StablePath "control/devices/x.json" := by decide

end Bpc.Controlplane
