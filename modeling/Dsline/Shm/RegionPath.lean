import Dsline.Core.Crc
import Dsline.Core.Text
import Dsline.Library.Path
import Mathlib.Data.Nat.Digits.Defs
/-!
# The file of a named channel

The channel and the command line resolve a name on their own: the same file
name, in a runtime directory each of them looks up in the environment. The
channel asks whether a variable is set, the command line whether it holds
anything, and their last resorts differ.
-/

namespace Dsline

open Path

variable {Node : Type}

/-- What a process sees of its surroundings: two environment variables, its
working directory, and the path `os.getcwd` returns for it. -/
structure Environment (fs : FileSystem Node) where
  xdgRuntimeDir : Option Text
  tmpdir : Option Text
  cwd : Node
  getcwd : Text
  getcwd_resolves : fs.resolve cwd getcwd = cwd

/-- The node a path denotes to a process. -/
def Environment.denotes {fs : FileSystem Node} (env : Environment fs) (path : Text) : Node :=
  fs.resolve env.cwd path

/-- A number as `{:08x}` prints it. -/
def hex8 (n : ℕ) : Text :=
  let digits := (Nat.digits 16 n).reverse.map Nat.digitChar
  List.replicate (8 - digits.length) '0' ++ digits

/-- `dsline-{digest:08x}.bin`. -/
def regionFileName (digest : ℕ) : Text :=
  ['d', 's', 'l', 'i', 'n', 'e', '-'] ++ hex8 digest ++ ['.', 'b', 'i', 'n']

def dslineDir : Text := ['d', 's', 'l', 'i', 'n', 'e']

def shmDir : Text := ['s', 'h', 'm']

/-- The UTF-8 bytes of a name. -/
def nameBytes (name : String) : Bytes := name.toUTF8.toList

/-! ## The channel -/

/-- `std::env::temp_dir`. -/
def tempDir {fs : FileSystem Node} (env : Environment fs) : Text :=
  env.tmpdir.getD ['/', 't', 'm', 'p']

/-- `shm_runtime_base`, on every platform but Windows. -/
def shmRuntimeBase {fs : FileSystem Node} (env : Environment fs) : Text :=
  -- `var_os`: a variable that is set to nothing is set
  (env.xdgRuntimeDir.or env.tmpdir).getD (tempDir env)

/-- `shm_runtime_dir`. -/
def shmRuntimeDir {fs : FileSystem Node} (env : Environment fs) : Text :=
  join (join (shmRuntimeBase env) dslineDir) shmDir

/-- `shm_region_path`. -/
def shmRegionPath [Checksum] {fs : FileSystem Node} (env : Environment fs) (name : String) : Text :=
  join (shmRuntimeDir env) (regionFileName (checksum32 (nameBytes name)).toNat)

/-! ## The command line -/

/-- `os.environ.get(..) or`: a variable that holds anything. -/
def truthy : Option Text → Option Text
  | some (c :: value) => some (c :: value)
  | _ => none

@[simp] theorem truthy_none : truthy none = none := rfl

@[simp] theorem truthy_nil : truthy (some []) = none := rfl

@[simp] theorem truthy_cons (c : Char) (value : Text) :
    truthy (some (c :: value)) = some (c :: value) := rfl

/-- `_checksum32`, with `zlib.crc32`. -/
def checksum32Py (data : Bytes) : ℕ := (crc32 data).toNat &&& 0xFFFFFFFF

/-- The base of `runtime_dir`, on every platform but Windows. -/
def runtimeBase {fs : FileSystem Node} (env : Environment fs) : Text :=
  -- a variable that is set to nothing is passed over
  ((truthy env.xdgRuntimeDir).or (truthy env.tmpdir)).getD env.getcwd

/-- `runtime_dir`. -/
def runtimeDir {fs : FileSystem Node} (env : Environment fs) : Text :=
  join (join (runtimeBase env) dslineDir) shmDir

/-- `region_path`. -/
def regionPath {fs : FileSystem Node} (env : Environment fs) (name : String) : Text :=
  join (runtimeDir env) (regionFileName (checksum32Py (nameBytes name)))

/-! ## The two paths -/

/-- No two directories lead to one file by the same names. -/
def Unlinked (fs : FileSystem Node) : Prop :=
  ∀ dir dir' : Node, ∀ file : Text,
    fs.enter (fs.enter (fs.enter dir dslineDir) shmDir) file
      = fs.enter (fs.enter (fs.enter dir' dslineDir) shmDir) file → dir = dir'

/-- **Where the two look in one directory.** An empty `XDG_RUNTIME_DIR` is
the working directory to the channel and no answer to the command line; with
both variables unset one falls back to `/tmp`, the other to the working
directory. -/
def BasesAgree {fs : FileSystem Node} (env : Environment fs) : Prop :=
  match env.xdgRuntimeDir, env.tmpdir with
  | some [], some tmp => env.denotes tmp = env.cwd
  | none, none => env.denotes ['/', 't', 'm', 'p'] = env.cwd
  | _, _ => True

theorem checksum32Py_eq (data : Bytes) : checksum32Py data = (crc32 data).toNat := by
  have hmask : (0xFFFFFFFF : ℕ) = 2 ^ 32 - 1 := rfl
  rw [checksum32Py, hmask, Nat.and_two_pow_sub_one_eq_mod, Nat.mod_eq_of_lt (UInt32.toNat_lt _)]

theorem slash_not_mem_hex8 (n : ℕ) : '/' ∉ hex8 n := by
  have hdigit : ∀ d < 16, Nat.digitChar d ≠ '/' := by decide
  simp only [hex8, List.mem_append, List.mem_replicate, List.mem_map, List.mem_reverse, not_or,
    not_and, not_exists]
  exact ⟨fun _ => by decide, fun d hd => hdigit d (Nat.digits_lt_base (by decide) hd)⟩

theorem isName_regionFileName (digest : ℕ) : IsName (regionFileName digest) := by
  refine ⟨by simp [regionFileName], by simp [regionFileName], ?_⟩
  simp only [regionFileName, List.mem_append, not_or]
  exact ⟨⟨by decide, slash_not_mem_hex8 digest⟩, by decide⟩

section

variable [Checksum] {fs : FileSystem Node} {env : Environment fs}

omit [Checksum] in
/-- A path of the runtime directory, walked from what its base denotes. -/
theorem denotes_region (base : Text) (digest : ℕ) :
    env.denotes (join (join (join base dslineDir) shmDir) (regionFileName digest))
      = fs.enter (fs.enter (fs.enter (env.denotes base) dslineDir) shmDir)
          (regionFileName digest) := by
  rw [Environment.denotes, resolve_join (isName_regionFileName digest), resolve_join (by decide),
    resolve_join (by decide), Environment.denotes]

omit [Checksum] in
theorem denotes_getcwd : env.denotes env.getcwd = env.cwd := env.getcwd_resolves

omit [Checksum] in
theorem denotes_nil : env.denotes [] = env.cwd := resolve_nil

omit [Checksum] in
/-- **The two bases denote one directory** in the environments where they
agree, and in no others. -/
theorem bases_agree_iff :
    env.denotes (shmRuntimeBase env) = env.denotes (runtimeBase env) ↔ BasesAgree env := by
  rw [shmRuntimeBase, runtimeBase, BasesAgree, tempDir]
  rcases env.xdgRuntimeDir with _ | _ | ⟨c, xdg⟩
  · rcases env.tmpdir with _ | _ | ⟨c, tmp⟩
    · simp [denotes_getcwd]
    · simp [denotes_getcwd, denotes_nil]
    · simp
  · rcases env.tmpdir with _ | _ | ⟨c, tmp⟩
    · simp [denotes_getcwd, denotes_nil]
    · simp [denotes_getcwd, denotes_nil]
    · simp [denotes_nil, eq_comm]
  · simp

/-- Where the bases agree the two paths denote one file, links or not. -/
theorem region_paths_agree (hcrc : IsCrc32) (h : BasesAgree env) (name : String) :
    env.denotes (shmRegionPath env name) = env.denotes (regionPath env name) := by
  rw [shmRegionPath, shmRuntimeDir, regionPath, runtimeDir, hcrc, checksum32Py_eq, denotes_region,
    denotes_region, bases_agree_iff.2 h]

/-- Without links, one file is in one directory. -/
theorem bases_of_region_paths (hcrc : IsCrc32) (hunlinked : Unlinked fs) {name : String}
    (h : env.denotes (shmRegionPath env name) = env.denotes (regionPath env name)) :
    env.denotes (shmRuntimeBase env) = env.denotes (runtimeBase env) := by
  rw [shmRegionPath, shmRuntimeDir, regionPath, runtimeDir, hcrc, checksum32Py_eq, denotes_region,
    denotes_region] at h
  exact hunlinked _ _ _ h

/-- **The channel and the command line find one file** for every name, where
their bases agree; and, links aside, only there. -/
theorem region_paths_agree_iff (hcrc : IsCrc32) (env : Environment fs) (name : String) :
    (BasesAgree env →
      env.denotes (shmRegionPath env name) = env.denotes (regionPath env name)) ∧
    (Unlinked fs →
      (env.denotes (shmRegionPath env name) = env.denotes (regionPath env name) ↔
        BasesAgree env)) :=
  ⟨fun h => region_paths_agree hcrc h name, fun hunlinked =>
    ⟨fun h => bases_agree_iff.1 (bases_of_region_paths hcrc hunlinked h),
      fun h => region_paths_agree hcrc h name⟩⟩

end

/-- The file system whose nodes are their own paths. -/
def treeFileSystem : FileSystem (List Text) where
  root := []
  enter dir part := dir ++ [part]

theorem treeFileSystem_unlinked : Unlinked treeFileSystem := by
  intro dir dir' file h
  simpa [treeFileSystem] using h

/-- A process in `/home`, with its two variables. -/
def homeEnvironment (xdgRuntimeDir tmpdir : Option Text) : Environment treeFileSystem where
  xdgRuntimeDir := xdgRuntimeDir
  tmpdir := tmpdir
  cwd := [['h', 'o', 'm', 'e']]
  getcwd := ['/', 'h', 'o', 'm', 'e']
  getcwd_resolves := by decide

/-- With `XDG_RUNTIME_DIR` set to `/run` they agree. -/
theorem region_paths_agree_iff_xdg :
    (homeEnvironment (some ['/', 'r', 'u', 'n']) none).denotes
        (@shmRegionPath _ crc32Checksum _
          (homeEnvironment (some ['/', 'r', 'u', 'n']) none) "demo")
      = (homeEnvironment (some ['/', 'r', 'u', 'n']) none).denotes
        (regionPath (homeEnvironment (some ['/', 'r', 'u', 'n']) none) "demo") :=
  ((@region_paths_agree_iff _ crc32Checksum _ isCrc32 _ _).2 treeFileSystem_unlinked).2 trivial

/-- **With neither variable set they do not**: the channel of a process in
`/home` lives under `/tmp`, and the command line looks under `/home`. -/
theorem region_paths_differ :
    ¬ ∀ (env : Environment treeFileSystem) (name : String),
      env.denotes (@shmRegionPath _ crc32Checksum _ env name) =
        env.denotes (regionPath env name) := by
  intro h
  have hbases := @bases_of_region_paths _ crc32Checksum _ _ isCrc32 treeFileSystem_unlinked _
    (h (homeEnvironment none none) "demo")
  exact absurd hbases (by decide)

end Dsline
