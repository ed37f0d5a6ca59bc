/-
  STAGE 4.5 — the historical Controller state is copied to its canonical place
  (`bpc_connect/compat/migration.py`).

  The state root is a tree of directories, files and links; a request is one call to the file
  system.  The output of the inventory commands and the order of a directory walk are inputs.
-/
import Bpc.Lib.Crash
import Bpc.Lib.TreeMove

namespace Bpc.Migration

open Interaction

/-! ## The state root -/

/-- A name in the state root. -/
inductive Name where
  | text (s : String)
  /-- `.{name}.{pid}.tmp`. -/
  | temp (name : String) (pid : Nat)
  /-- `.control.stage45-{pid}`. -/
  | stage (pid : Nat)
  /-- `pre-4.5-{timestamp}`, with `-{suffix}` unless that is zero. -/
  | backup (timestamp suffix : Nat)
  deriving DecidableEq

/-- A name as a list of numbers, by which names are ordered. -/
def Name.code : Name → List Nat
  | .text s => 0 :: s.toList.map Char.toNat
  | .temp s pid => 1 :: pid :: s.toList.map Char.toNat
  | .stage pid => [2, pid]
  | .backup timestamp suffix => [3, timestamp, suffix]

instance : Ord Name := ⟨compareOn Name.code⟩

instance : Std.TransOrd Name := inferInstanceAs (Std.TransCmp (compareOn Name.code))

theorem toList_toNat_injective {s t : String}
    (h : s.toList.map Char.toNat = t.toList.map Char.toNat) : s = t := by
  have hinj : Function.Injective Char.toNat := fun a b hab => Char.toNat_inj.mp hab
  exact String.toList_inj.mp (List.map_injective_iff.mpr hinj h)

instance : Std.LawfulEqOrd Name where
  eq_of_compare {a b} h := by
    have hcode : a.code = b.code := Std.LawfulEqOrd.eq_of_compare h
    cases a <;> cases b <;> simp_all [Name.code]
    · exact toList_toNat_injective hcode
    · exact toList_toNat_injective hcode.2

/-- A path below the state root. -/
abbrev Path := List Name

/-- `MigrationReport`; paths as such, not as texts. -/
structure Report where
  backupDir : Path
  bpcOwnedObjectsModified : List Path
  legacyBpcObjectsMigrated : List (Path × Path)
  externalWireguardObjectsDetected : List String
  externalRoutesDetected : String
  externalFirewallState : String
  externalObjectsModified : List Path
  deriving DecidableEq

/-- What a file holds. -/
inductive Content where
  | bytes (b : List UInt8)
  /-- The ownership marker. -/
  | ownership (migratedFrom : Option Path)
  /-- The migration marker. -/
  | migration (report : Report) (completedAt : Nat)
  deriving DecidableEq

/-- What is in a directory and is not a directory. -/
inductive Leaf where
  | file (content : Content)
  | link (target : String)
  deriving DecidableEq

/-- The state root. -/
abbrev Tree := FileTree Name Leaf

/-- `ru-node/control`. -/
def legacyControl : Path := [.text "ru-node", .text "control"]

/-- `control`. -/
def controlDir : Path := [.text "control"]

/-- `compat`. -/
def compatDir : Path := [.text "compat"]

/-- `backups`. -/
def backupsDir : Path := [.text "backups"]

/-- The other canonical directories, in the order they are made. -/
def coreDirs : List Path :=
  [[.text "identity"], [.text "cluster"], [.text "runtime"], [.text "transports"], compatDir]

/-- `.bpc-state.json`. -/
def ownershipName : String := ".bpc-state.json"

/-- `stage-4.5.json`. -/
def migrationName : String := "stage-4.5.json"

/-- The ownership marker of the Controller state. -/
def controlMarker : Path := controlDir ++ [.text ownershipName]

/-- The migration marker. -/
def migrationMarker : Path := compatDir ++ [.text migrationName]

/-! ## Manifests -/

/-- An entry of a manifest. -/
inductive Kind where
  | symlink (target : String)
  | file (digest : Nat)
  | dir
  deriving DecidableEq

/-- What lies below a directory. -/
abbrev Manifest := SortedMap Path Kind

variable (sha256 : Content → Nat)

/-- The manifest entry of a node. -/
def kindOf : Node Leaf → Kind
  | .dir => .dir
  | .file (.file content) => .file (sha256 content)
  | .file (.link target) => .symlink target

/-- `_tree_manifest`. -/
def treeManifest (t : Tree) (root : Path) : Manifest :=
    (t.below root).map fun _ n => kindOf sha256 n

/-- `_control_payload_manifest`. -/
def controlPayloadManifest (t : Tree) (root : Path) : Manifest :=
  (treeManifest sha256 t root).erase [.text ownershipName]

/-! ## Requests -/

/-- A call that writes. -/
inductive Change where
  | mkdir (p : Path)
  /-- A file is created, or its content replaced. -/
  | write (p : Path) (content : Content)
  | symlink (p : Path) (target : String)
  /-- `os.replace`. -/
  | replace (src dst : Path)
  | rmdir (p : Path)
  | unlink (p : Path)

/-- The change; links are not followed. -/
def Change.apply (t : Tree) : Change → Except FsError Tree
  | .mkdir p => t.place p .dir
  | .write p content =>
    match t.get p with
    | some (.file (.link _)) => .error .notExist
    | _ => t.place p (.file (.file content))
  | .symlink p target =>
    if (t.get p).isSome then .error .isDirectory else t.place p (.file (.link target))
  | .replace src dst =>
    match t.get src with
    | none => .error .notExist
    | some .dir => t.moveDir src dst
    | some (.file leaf) =>
      match t.place dst (.file leaf) with
      | .error e => .error e
      | .ok t' => t'.remove src
  | .rmdir p => t.remove p
  | .unlink p => t.remove p

/-- A call to the file system. -/
inductive Request where
  | pathExists (p : Path)
  | isFile (p : Path)
  | isDir (p : Path)
  | payload (root : Path)
  | listing (root : Path)
  /-- The first suffix that is free for a backup. -/
  | freeSuffix (timestamp : Nat)
  | read (p : Path)
  | change (c : Change)

/-- What a call returns. -/
def Answer : Request → Type
  | .pathExists _ => Bool
  | .isFile _ => Bool
  | .isDir _ => Bool
  | .payload _ => Manifest
  | .listing _ => SortedMap Path (Node Leaf)
  | .freeSuffix _ => Nat
  | .read _ => Option Content
  | .change _ => Except FsError Unit

/-- A directory for a backup. -/
def backupDir (timestamp suffix : Nat) : Path := backupsDir ++ [.backup timestamp suffix]

/-- `while backup.exists(): suffix += 1`. -/
def freeSuffix (t : Tree) (timestamp : Nat) : Nat :=
  ((List.range (t.nodes.toList.length + 1)).find? fun k =>
    (t.get (backupDir timestamp k)).isNone).getD 0

variable (leadsToFile : String → Bool)

/-- `Path.is_file`; where a link leads is not ours to know. -/
def isFile (t : Tree) (p : Path) : Bool :=
  match t.get p with
  | some (.file (.file _)) => true
  | some (.file (.link target)) => leadsToFile target
  | _ => false

/-- The content of a regular file. -/
def readFile (t : Tree) (p : Path) : Option Content :=
  match t.get p with
  | some (.file (.file content)) => some content
  | _ => none

/-- The file system. -/
def perform (t : Tree) : (r : Request) → Answer r × Tree
  | .pathExists p => ((t.get p).isSome, t)
  | .isFile p => (isFile leadsToFile t p, t)
  | .isDir p => (t.isDir p, t)
  | .payload root => (controlPayloadManifest sha256 t root, t)
  | .listing root => (t.below root, t)
  | .freeSuffix timestamp => (freeSuffix t timestamp, t)
  | .read p => (readFile t p, t)
  | .change c =>
    match c.apply t with
    | .error e => (.error e, t)
    | .ok t' => (.ok (), t')

/-! ## Program -/

/-- What the program raises. -/
inductive MigrationError where
  | os (e : FsError)
  | runtime (message : String)
  deriving DecidableEq

/-- A program over the file system. -/
abbrev Script := Prog Request Answer MigrationError

/-- A process: its id, the time, the order of its walks, the inventory. -/
structure Env where
  pid : Nat
  now : Nat
  scan : Scan Name Leaf
  snapshots : List (String × Content)
  externalWireguard : List String
  externalRoutes : String
  firewallState : String

/-- One call. -/
def ask (r : Request) : Script (Answer r) := Prog.ask r

/-- One change; its error is raised. -/
def doChange (c : Change) : Script Unit :=
  (ask (.change c)).bind fun (answer : Except FsError Unit) =>
    match answer with
    | .ok () => .ret ()
    | .error e => .raise (.os e)

/-- `mkdir(exist_ok=True)`. -/
def ensureDir (p : Path) : Script Unit :=
  (ask (.isDir p)).bind fun (there : Bool) => if there then .ret () else doChange (.mkdir p)

/-- `mkdir(parents=True, exist_ok=True)`. -/
def makeDirs (p : Path) : Script Unit := Prog.forEach ensureDir p.inits

/-- `write_text`: the file is created, then filled. -/
def writeText (p : Path) (content : Content) : Script Unit :=
  (doChange (.write p (.bytes []))).bind fun _ => doChange (.write p content)

/-- `_atomic_json`, to a path given as directory and name. -/
def atomicJson (env : Env) (parent : Path) (name : String) (content : Content) : Script Unit :=
  (makeDirs parent).bind fun _ =>
  (writeText (parent ++ [.temp name env.pid]) content).bind fun _ =>
  doChange (.replace (parent ++ [.temp name env.pid]) (parent ++ [.text name]))

/-- One entry of `copytree(…, symlinks=True)`. -/
def copyEntry (dst : Path) (entry : Path × Node Leaf) : Script Unit :=
  match entry.2 with
  | .dir => doChange (.mkdir (dst ++ entry.1))
  | .file (.file content) => writeText (dst ++ entry.1) content
  | .file (.link target) => doChange (.symlink (dst ++ entry.1) target)

/-- `shutil.copytree(src, dst, symlinks=True)`. -/
def copyTree (env : Env) (src dst : Path) : Script Unit :=
  (ask (.listing src)).bind fun (entries : SortedMap Path (Node Leaf)) =>
  (doChange (.mkdir dst)).bind fun _ =>
  Prog.forEach (copyEntry dst) (env.scan.list entries)

/-- `shutil.rmtree`. -/
def rmTree (env : Env) (root : Path) : Script Unit :=
  (ask (.listing root)).bind fun (entries : SortedMap Path (Node Leaf)) =>
  (Prog.forEach (fun entry => doChange (.unlink (root ++ entry.1)))
    (env.scan.list entries).reverse).bind fun _ =>
  doChange (.rmdir root)

/-- `capture_preflight_inventory`. -/
def takeInventory (env : Env) (backup : Path) : Script Path :=
  (makeDirs backup).bind fun _ =>
  (doChange (.mkdir (backup ++ [.text "inventory"]))).bind fun _ =>
  (Prog.forEach (fun snapshot =>
    writeText (backup ++ [.text "inventory", .text snapshot.1]) snapshot.2)
      env.snapshots).bind fun _ =>
  .ret backup

/-- `capture_preflight_inventory`, which returns the backup directory. -/
def captureInventory (env : Env) : Script Path :=
  (ask (.freeSuffix env.now)).bind fun (suffix : Nat) =>
  takeInventory env (backupDir env.now suffix)

/-- `a != b`. -/
def differ (a b : Manifest) : Bool := decide (a.toList ≠ b.toList)

/-- The staging copy is verified and moved to the target. -/
def activateStaged (env : Env) (source target : Path) (sourceManifest : Manifest) :
    Script Bool :=
  (ask (.payload source)).bind fun (again : Manifest) =>
  (ask (.payload [.stage env.pid])).bind fun (copied : Manifest) =>
  if differ again sourceManifest || differ copied sourceManifest then
    (rmTree env [.stage env.pid]).bind fun _ =>
    .raise (.runtime
      "legacy Controller state changed during migration; no canonical state was activated")
  else (doChange (.replace [.stage env.pid] target)).bind fun _ => .ret true

/-- The end of `_copy_legacy_control`: a copy beside the target, and its move. -/
def activate (env : Env) (source target : Path) (sourceManifest : Manifest) : Script Bool :=
  (ask (.pathExists [.stage env.pid])).bind fun (stale : Bool) =>
  (if stale then rmTree env [.stage env.pid] else .ret ()).bind fun _ =>
  (copyTree env source [.stage env.pid]).bind fun _ =>
  activateStaged env source target sourceManifest

/-- `_copy_legacy_control` with a target that is there. -/
def compareCanonical (env : Env) (source target : Path) (sourceManifest : Manifest) :
    Script Bool :=
  (ask (.payload target)).bind fun (current : Manifest) =>
  if current.toList ≠ [] then
    if differ current sourceManifest then
      .raise (.runtime ("canonical Controller state already exists and differs from " ++
        "legacy state; refusing to overwrite either copy"))
    else
      (ask (.payload source)).bind fun (again : Manifest) =>
      if differ again sourceManifest then
        .raise (.runtime ("legacy Controller state changed during migration; " ++
          "retry when state is stable"))
      else .ret true
  else (doChange (.rmdir target)).bind fun _ => activate env source target sourceManifest

/-- `_copy_legacy_control` after the backup. -/
def placeCanonical (env : Env) (source target : Path) (sourceManifest saved : Manifest) :
    Script Bool :=
  if differ sourceManifest saved then
    .raise (.runtime "legacy Controller backup verification failed")
  else
    (ask (.pathExists target)).bind fun (occupied : Bool) =>
    if occupied then compareCanonical env source target sourceManifest
    else activate env source target sourceManifest

/-- `_copy_legacy_control`. -/
def copyLegacyControl (env : Env) (source target backup : Path) : Script Bool :=
  (ask (.isDir source)).bind fun (there : Bool) =>
  if !there then (makeDirs target).bind fun _ => .ret false
  else
    (ask (.payload source)).bind fun (sourceManifest : Manifest) =>
    (copyTree env source (backup ++ [.text "legacy-control"])).bind fun _ =>
    (ask (.payload (backup ++ [.text "legacy-control"]))).bind fun (saved : Manifest) =>
    placeCanonical env source target sourceManifest saved

/-- The copy, if there is a legacy tree. -/
def moveControl (env : Env) (backup : Path) : Script (List Path × List (Path × Path)) :=
  (ask (.isDir legacyControl)).bind fun (legacy : Bool) =>
  if legacy then
    (copyLegacyControl env legacyControl controlDir backup).bind fun copied =>
    .ret (if copied then ([controlDir], [(legacyControl, controlDir)]) else ([], []))
  else (makeDirs controlDir).bind fun _ => .ret ([controlDir], [])

/-- A canonical directory, and whether it is new. -/
def makeCore (p : Path) : Script (Option Path) :=
  (ask (.pathExists p)).bind fun (existed : Bool) =>
  (makeDirs p).bind fun _ => .ret (if existed then none else some p)

/-- The ownership marker. -/
def markControl (env : Env) : Script (List Path) :=
  (ask (.isFile controlMarker)).bind fun (marked : Bool) =>
  if marked then .ret []
  else
    (ask (.isDir legacyControl)).bind fun (legacy : Bool) =>
    (atomicJson env controlDir ownershipName
      (.ownership (if legacy then some legacyControl else none))).bind fun _ =>
    .ret [controlMarker]

/-- `migrate_canonical_state` without a migration marker. -/
def migrate (env : Env) : Script Report :=
  (captureInventory env).bind fun backup =>
  (moveControl env backup).bind fun moved =>
  (Prog.collect makeCore coreDirs).bind fun made =>
  (markControl env).bind fun marked =>
  let report : Report :=
    { backupDir := backup
      bpcOwnedObjectsModified := moved.1 ++ made ++ marked
      legacyBpcObjectsMigrated := moved.2
      externalWireguardObjectsDetected := env.externalWireguard
      externalRoutesDetected := env.externalRoutes
      externalFirewallState := env.firewallState
      externalObjectsModified := [] }
  (atomicJson env compatDir migrationName (.migration report env.now)).bind fun _ => .ret report

/-- `migrate_canonical_state` with a migration marker. -/
def reportAgain : Script Report :=
  (ask (.isFile controlMarker)).bind fun (marked : Bool) =>
  if !marked then
    .raise (.runtime "Stage 4.5 marker exists but canonical Controller ownership marker is missing")
  else
    (ask (.read migrationMarker)).bind fun (content : Option Content) =>
    match content with
    | some (.migration report _) => .ret report
    | _ => .raise (.runtime "invalid Stage 4.5 migration marker")

/-- `migrate_canonical_state`. -/
def migrateCanonicalState (env : Env) : Script Report :=
  (makeDirs []).bind fun _ =>
  (makeDirs compatDir).bind fun _ =>
  (ask (.isFile migrationMarker)).bind fun (completed : Bool) =>
  if completed then reportAgain else migrate env

end Bpc.Migration
