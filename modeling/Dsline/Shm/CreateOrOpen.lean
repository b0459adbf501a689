import Dsline.Library.Run
import Dsline.Shm.OpenCalls
/-!
# Many processes create or open one region

Any number of processes call `create_or_open` on one path, each under a
configuration of its own, one access to the file at a time, in any order;
each may stop for good anywhere. The exclusive create picks the one that
initialises the region, and the mode magic, written last, tells the others
that it is done; who opens the file recovers its state from it. Whoever holds
a handle holds it on the file a lone `create` leaves, with what handles and
recoveries wrote since (`handle_file`).
-/

namespace Dsline

open LittleEndian PersistentShmChannel

/-! ## The system -/

/-- Who waits for the magic. -/
inductive Waiter where
  /-- It opened the file. -/
  | opener
  /-- It created the file, and met a magic in `create_or_open`. -/
  | creator
  /-- It created the file, and met a magic in `initialize_region`, behind which
  there is nothing to recover. -/
  | initialiser
  deriving DecidableEq

/-- How far a process is in `create_or_open`, by its next access. -/
inductive InitPhase where
  /-- The exclusive create. -/
  | idle
  /-- The file is its own: `set_len`. -/
  | created
  /-- The map of the file it created. -/
  | sized
  /-- `create_or_open` looks at the magic of a file it created. -/
  | mapped
  /-- `initialize_region` looks at the magic once more. -/
  | fresh
  /-- FREE headers are written up to here, then the floor word. -/
  | headers (i : ℕ)
  | format
  | magic
  /-- The create failed: the file is opened. -/
  | opening
  /-- `wait_for_full_size`. -/
  | stating
  | mapping
  /-- `wait_initialized`. -/
  | polling (who : Waiter)
  /-- `check_format`. -/
  | checking (who : Waiter)
  /-- `recover_from_storage`. -/
  | recovering (call : RecoveryCall)
  /-- The region is its own to use. -/
  | holding
  | failed (err : Failure)

/-- What a process meets at its next access. -/
inductive InitChoice where
  | next
  /-- The call into the system fails. -/
  | fail
  /-- The deadline of a wait has passed. -/
  | giveUp
  /-- The process a recovery probes is gone. -/
  | gone
  /-- A handle writes. -/
  | write (offset : ℕ) (bytes : Bytes)
  deriving DecidableEq

structure InitState where
  file : Option RegionFile
  phases : ℕ → InitPhase
  /-- What handles and recoveries wrote, in order: no process reads it. -/
  written : List (ℕ × Bytes)

/-- `load_magic`. -/
def RegionFile.magic (file : RegionFile) : UInt32 := .ofNat (file.word MAGIC_OFFSET 4)

/-- `load_format`. -/
def RegionFile.format (file : RegionFile) : UInt32 := .ofNat (file.word FORMAT_OFFSET 4)

/-- Writes, one after the other. -/
def RegionFile.writeAll (file : RegionFile) (written : List (ℕ × Bytes)) : RegionFile :=
  written.foldl (fun file w => file.write w.1 w.2) file

def InitPhase.storageIo (text : String) : InitPhase := .failed (.ofChannel (.storageIo text))

def InitPhase.invalidConfig (text : String) : InitPhase :=
  .failed (.ofChannel (.invalidConfig text))

namespace InitPhase

/-- A process behind a call of its recovery. -/
def recovered : RecoveryResult → InitPhase
  | .call next => recovering next
  | .done => holding
  | .inconsistent => failed inconsistentCursors
  | .unflushed => storageIo "flush mmap storage"

/-- The file, once it is there, at the next access of a process. -/
def advanceOn (config : SpscConfig) (len : ℕ) (choice : InitChoice) (file : RegionFile) :
    InitPhase → InitPhase × RegionFile
  | idle => (opening, file)
  | created =>
      -- what fails in `create_new` is answered by `open`
      if choice = .fail ∨ isizeMax < len then (opening, file) else (sized, { file with len })
  | sized => if choice = .fail then (opening, file) else (mapped, file)
  | mapped => (if file.magic = 0 then fresh else polling .creator, file)
  | fresh => (if file.magic = 0 then headers 0 else polling .initialiser, file)
  | headers i =>
      if i < config.capacity then (headers (i + 1), file.writeFree i (regionSlotSize config))
      else (format, file.write PIN_FLOOR_OFFSET (leBytes 8 PIN_FLOOR_NONE))
  | format => (magic, file.write FORMAT_OFFSET (leBytes 4 REGION_FORMAT.toNat))
  | magic =>
      (holding, file.write MAGIC_OFFSET (leBytes 4 (regionMagic config.multiProducer).toNat))
  | opening => (if choice = .fail then storageIo "open mmap storage" else stating, file)
  | stating =>
      (if choice = .fail then storageIo "stat file storage"
        else if len ≤ file.len then mapping
        else if choice = .giveUp then invalidConfig "file storage is smaller than expected"
        else stating, file)
  | mapping => (if choice = .fail then storageIo "map mmap storage" else polling .opener, file)
  | polling who =>
      (if file.magic = regionMagic config.multiProducer then checking who
        else if file.magic ≠ 0 then
          invalidConfig "region channel mode mismatch (all processes must agree on multi_producer)"
        else if choice = .giveUp then invalidConfig "region is not initialized"
        else polling who, file)
  | checking who =>
      (if file.format ≠ REGION_FORMAT then
          invalidConfig "unsupported region format (delete stale dsline region files)"
        else if who = .initialiser then holding
        else recovering (.start config), file)
  | recovering call =>
      (recovered (call.next config file (choice = .gone) (choice = .fail)),
        file.writeAll (call.stores config file))
  | holding =>
      match choice with
      | .write offset bytes =>
          (holding, if InRegion file offset bytes then file.write offset bytes else file)
      | .next | .fail | .giveUp | .gone => (holding, file)
  | failed err => (failed err, file)

/-- The next access of a process under a configuration. -/
def advance (config : SpscConfig) (choice : InitChoice) (file : Option RegionFile)
    (phase : InitPhase) : InitPhase × Option RegionFile :=
  match phase, file with
  | idle, file =>
      match (do
        config.validate
        fileLen config) with
      | .error err => (failed err, file)
      | .ok _ =>
          match file with
          | some file => (opening, some file)
          | none => if choice = .fail then (opening, none) else (created, some (.zero 0))
  | phase, some file =>
      ((phase.advanceOn config (needLen config) choice file).1,
        some (phase.advanceOn config (needLen config) choice file).2)
  | opening, none => (storageIo "open mmap storage", none)
  | phase, none => (phase, none)

end InitPhase

namespace InitState

/-- No process has called, and there is no file. -/
def start : InitState := ⟨none, fun _ => .idle, []⟩

def setPhase (s : InitState) (p : ℕ) (phase : InitPhase) : InitState :=
  { s with phases := fun q => if q = p then phase else s.phases q }

/-- What a handle, or a recovery, writes at its next access. -/
def writes (config : SpscConfig) (phase : InitPhase) (choice : InitChoice)
    (file : Option RegionFile) : List (ℕ × Bytes) :=
  match phase, choice, file with
  | .holding, .write offset bytes, some file =>
      if InRegion file offset bytes then [(offset, bytes)] else []
  | .recovering call, _, some file => call.stores config file
  | _, _, _ => []

/-- The next access of a process. -/
def step (configs : ℕ → SpscConfig) (s : InitState) (i : ℕ × InitChoice) : InitState :=
  let (phase, file) := (s.phases i.1).advance (configs i.1) i.2 s.file
  { s.setPhase i.1 phase with
    file
    written := s.written ++ writes (configs i.1) (s.phases i.1) i.2 s.file }

end InitState

/-! ## The stages of a region -/

namespace InitPhase

def modeMismatch : Failure := .ofChannel (.invalidConfig
  "region channel mode mismatch (all processes must agree on multi_producer)")

def unsupportedFormat : Failure := .ofChannel (.invalidConfig
  "unsupported region format (delete stale dsline region files)")

/-- The process initialises the region. -/
def Initialises : InitPhase → Prop
  | created | sized | mapped | fresh | headers _ | format | magic => True
  | _ => False

/-- Neither a handle, nor on the way to one but by waiting for the magic of a
file of this length, which it found long enough. -/
def Outside (need len : ℕ) : InitPhase → Prop
  | idle | opening | stating => True
  | mapping | polling .opener => need ≤ len
  | failed err => err ≠ modeMismatch ∧ err ≠ unsupportedFormat
  | _ => False

/-- What the file is while a process initialises it. -/
def Filled (len : ℕ) : InitPhase → RegionFile → Prop
  | created, file => file = .zero 0
  | sized, file | mapped, file | fresh, file | headers _, file =>
      len ≤ isizeMax ∧ file = .zero len
  | format, file =>
      len ≤ isizeMax ∧
        file = (RegionFile.zero len).write PIN_FLOOR_OFFSET (leBytes 8 PIN_FLOOR_NONE)
  | magic, file =>
      len ≤ isizeMax ∧
        file = ((RegionFile.zero len).write PIN_FLOOR_OFFSET (leBytes 8 PIN_FLOOR_NONE)).write
          FORMAT_OFFSET (leBytes 4 REGION_FORMAT.toNat)
  | _, _ => False

/-- Where a process may be once the magic of a mode is in a file of this
length. -/
def Served (mode : Bool) (config : SpscConfig) (len : ℕ) : InitPhase → Prop
  | idle | opening | stating => True
  | mapping | polling .opener => needLen config ≤ len
  | checking who => who = .opener ∧ config.multiProducer = mode ∧ needLen config ≤ len
  | recovering call =>
      config.multiProducer = mode ∧ needLen config ≤ len ∧ call.Within config.capacity
  | holding => config.multiProducer = mode
  | failed err => err ≠ unsupportedFormat ∧ (err = modeMismatch → config.multiProducer ≠ mode)
  | _ => False

end InitPhase

open InitPhase

/-- A creator is done: the file is its own, with what handles wrote. -/
def RegionReady (configs : ℕ → SpscConfig) (s : InitState) : Prop :=
  ∃ c base, createFile (configs c) = .ok base ∧ s.file = some (base.writeAll s.written) ∧
    (∀ w ∈ s.written, InRegion base w.1 w.2) ∧
    ∀ p, Served (configs c).multiProducer (configs p) base.len (s.phases p)

/-- **The stages of a region**: no file; the file of a process that
initialises it; a file of zeros, its creator gone; and the file of a creator
that is done. -/
inductive Stage (configs : ℕ → SpscConfig) (s : InitState) : Prop
  | absent : s.file = none → s.written = [] →
      (∀ p, Outside (needLen (configs p)) 0 (s.phases p)) → Stage configs s
  | filling (c len : ℕ) (file : RegionFile) : (configs c).validate = .ok () →
      fileLen (configs c) = .ok len → s.file = some file → Filled len (s.phases c) file →
      s.written = [] → (∀ p, p ≠ c → Outside (needLen (configs p)) file.len (s.phases p)) →
      Stage configs s
  | abandoned (len : ℕ) : s.file = some (.zero len) → s.written = [] →
      (∀ p, Outside (needLen (configs p)) len (s.phases p)) → Stage configs s
  | ready : RegionReady configs s → Stage configs s

/-! ## The file -/

theorem magic_zero (len : ℕ) : (RegionFile.zero len).magic = 0 := by
  show UInt32.ofNat (leNat (Area.zero.read MAGIC_OFFSET 4)) = 0
  decide

theorem magic_write {file : RegionFile} {offset : ℕ} {bytes : Bytes}
    (h : offset + bytes.length ≤ MAGIC_OFFSET ∨ PIN_FLOOR_OFFSET ≤ offset) :
    (file.write offset bytes).magic = file.magic ∧
      (file.write offset bytes).format = file.format := by
  have hread : ∀ off, MAGIC_OFFSET ≤ off → off + 4 ≤ PIN_FLOOR_OFFSET →
      (file.bytes.write offset bytes).read off 4 = file.bytes.read off 4 := by
    intro off hle hge
    refine Area.read_write_disjoint ?_
    rcases h with h | h
    · exact .inr (Nat.le_trans h hle)
    · exact .inl (Nat.le_trans hge h)
  constructor
  · rw [RegionFile.magic, RegionFile.magic, RegionFile.word, RegionFile.word, RegionFile.write,
      hread _ (by decide) (by decide)]
  · rw [RegionFile.format, RegionFile.format, RegionFile.word, RegionFile.word, RegionFile.write,
      hread _ (by decide) (by decide)]

theorem writeFree_zero (len index slotSize : ℕ) :
    (RegionFile.zero len).writeFree index slotSize = .zero len := by
  have himage : freeImage = List.replicate 48 0 := by decide
  rw [RegionFile.writeFree, RegionFile.write]
  refine congrArg (RegionFile.mk len) (funext fun p => ?_)
  rw [Area.write]
  split
  · cases hget : freeImage[p - regionSlotOffset index slotSize]? with
    | none => rfl
    | some byte =>
        rw [himage] at hget
        exact List.eq_of_mem_replicate (List.mem_of_getElem? hget)
  · rfl

/-- The three words a creator writes behind its headers are what a created
file has before zeros. -/
theorem blank_eq (len : ℕ) (mode : Bool) :
    (((RegionFile.zero len).write PIN_FLOOR_OFFSET (leBytes 8 PIN_FLOOR_NONE)).write FORMAT_OFFSET
      (leBytes 4 REGION_FORMAT.toNat)).write MAGIC_OFFSET (leBytes 4 (regionMagic mode).toNat)
      = ⟨len, blank mode⟩ := by
  have hwords : (((Area.zero.write PIN_FLOOR_OFFSET (leBytes 8 PIN_FLOOR_NONE)).write FORMAT_OFFSET
      (leBytes 4 REGION_FORMAT.toNat)).write MAGIC_OFFSET
        (leBytes 4 (regionMagic mode).toNat)).read 0 REGION_HEADER_LEN
        = (blank mode).read 0 REGION_HEADER_LEN := by
    cases mode <;> decide +kernel
  refine congrArg (RegionFile.mk len) (funext fun p => ?_)
  rcases Nat.lt_or_ge p REGION_HEADER_LEN with hlt | hge
  · have hp := List.map_eq_map_iff.1 hwords p (List.mem_range.2 hlt)
    rwa [Nat.zero_add] at hp
  · have hfloor : PIN_FLOOR_OFFSET + (leBytes 8 PIN_FLOOR_NONE).length ≤ p :=
      Nat.le_trans (by decide) hge
    have hformat : FORMAT_OFFSET + (leBytes 4 REGION_FORMAT.toNat).length ≤ p :=
      Nat.le_trans (by decide) hge
    have hmagic : MAGIC_OFFSET + (leBytes 4 (regionMagic mode).toNat).length ≤ p :=
      Nat.le_trans (by cases mode <;> decide) hge
    exact (Area.write_apply_of_ge hmagic).trans ((Area.write_apply_of_ge hformat).trans
      ((Area.write_apply_of_ge hfloor).trans (if_neg (Nat.not_lt.2 hge)).symm))

variable {config : SpscConfig} {base file : RegionFile} {written : List (ℕ × Bytes)} {len : ℕ}

theorem createFile_inv (h : createFile config = .ok base) :
    config.validate = .ok () ∧ ∃ len, fileLen config = .ok len ∧ len ≤ isizeMax ∧
      base = ⟨len, blank config.multiProducer⟩ := by
  cases hvalid : config.validate with
  | error err =>
      simp only [createFile, hvalid, bind, Except.bind] at h
      cases h
  | ok u =>
      refine ⟨rfl, ?_⟩
      cases hlen : fileLen config with
      | error err =>
          simp only [createFile, hvalid, hlen, bind, Except.bind] at h
          cases h
      | ok len =>
          rcases Nat.lt_or_ge isizeMax len with hlt | hge
          · simp only [createFile, hvalid, hlen, setLen, if_pos hlt, bind, Except.bind] at h
            cases h
          · rw [createFile_eq hvalid hlen hge] at h
            exact ⟨len, rfl, hge, (Except.ok.inj h).symm⟩

/-- A created file has its magic and its format. -/
theorem magic_base (h : createFile config = .ok base) :
    base.magic = regionMagic config.multiProducer ∧ base.format = REGION_FORMAT := by
  obtain ⟨-, len, -, -, rfl⟩ := createFile_inv h
  have hwords : ∀ mode : Bool,
      UInt32.ofNat (leNat ((blank mode).read MAGIC_OFFSET 4)) = regionMagic mode ∧
        UInt32.ofNat (leNat ((blank mode).read FORMAT_OFFSET 4)) = REGION_FORMAT := by
    intro mode
    cases mode <;> decide +kernel
  exact hwords config.multiProducer

theorem regionMagic_ne_zero (mode : Bool) : regionMagic mode ≠ 0 := by
  cases mode <;> decide

theorem regionMagic_inj {mode mode' : Bool} (h : regionMagic mode = regionMagic mode') :
    mode = mode' := by
  revert h
  cases mode <;> cases mode' <;> decide

/-! ## One access -/

namespace InitPhase

variable {choice : InitChoice} {phase : InitPhase} {mode : Bool} {need : ℕ}

theorem storageIo_outside (need len : ℕ) (text : String) : Outside need len (storageIo text) := by
  rw [storageIo]
  exact ⟨(fun h => by cases h), fun h => by cases h⟩

/-- A file only grows. -/
theorem Outside.mono {len' : ℕ} (h : Outside need len phase) (hle : len ≤ len') :
    Outside need len' phase := by
  cases phase with
  | idle | opening | stating | failed _ => exact h
  | mapping => exact Nat.le_trans h hle
  | polling who =>
      cases who with
      | opener => exact Nat.le_trans h hle
      | creator | initialiser => exact h.elim
  | created | sized | mapped | fresh | headers _ | format | magic | checking _ | recovering _
  | holding => exact h.elim

/-- Before the magic is there, who is outside stays outside. -/
theorem advanceOn_outside (config : SpscConfig) (choice : InitChoice)
    (h : Outside need file.len phase) (hmagic : file.magic = 0) :
    (advanceOn config need choice file phase).2 = file ∧
      Outside need file.len (advanceOn config need choice file phase).1 := by
  cases phase with
  | idle => exact ⟨rfl, trivial⟩
  | opening =>
      refine ⟨rfl, ?_⟩
      dsimp only [advanceOn]
      split
      · exact storageIo_outside _ _ _
      · trivial
  | stating =>
      refine ⟨rfl, ?_⟩
      dsimp only [advanceOn]
      split
      · exact storageIo_outside _ _ _
      · split
        · assumption
        · split
          · exact ⟨by decide, by decide⟩
          · trivial
  | mapping =>
      refine ⟨rfl, ?_⟩
      dsimp only [advanceOn]
      split
      · exact storageIo_outside _ _ _
      · exact h
  | polling who =>
      cases who with
      | creator | initialiser => exact h.elim
      | opener =>
          refine ⟨rfl, ?_⟩
          dsimp only [advanceOn]
          rw [hmagic, if_neg (regionMagic_ne_zero _).symm, if_neg (not_not.2 rfl)]
          split
          · exact ⟨by decide, by decide⟩
          · exact h
  | failed err => exact ⟨rfl, h⟩
  | created | sized | mapped | fresh | headers _ | format | magic | checking _ | recovering _
  | holding => exact h.elim

/-- **A creator goes on, or leaves a file of zeros, or is done.** -/
theorem advanceOn_filled (config : SpscConfig) (choice : InitChoice) (h : Filled len phase file) :
    file.len ≤ (advanceOn config len choice file phase).2.len ∧
      (Filled len (advanceOn config len choice file phase).1
          (advanceOn config len choice file phase).2 ∨
        ((advanceOn config len choice file phase).1 = opening ∧
          ∃ n, (advanceOn config len choice file phase).2 = .zero n) ∨
        ((advanceOn config len choice file phase).1 = holding ∧ len ≤ isizeMax ∧
          (advanceOn config len choice file phase).2 = ⟨len, blank config.multiProducer⟩)) := by
  cases phase with
  | created =>
      obtain rfl : file = .zero 0 := h
      dsimp only [advanceOn]
      refine ⟨Nat.zero_le _, ?_⟩
      split
      · exact .inr (.inl ⟨rfl, 0, rfl⟩)
      · rename_i hok
        exact .inl ⟨Nat.le_of_not_lt fun hlt => hok (.inr hlt), rfl⟩
  | sized =>
      obtain ⟨hlen, rfl⟩ := h
      dsimp only [advanceOn]
      split
      · exact ⟨Nat.le_refl _, .inr (.inl ⟨rfl, len, rfl⟩)⟩
      · exact ⟨Nat.le_refl _, .inl ⟨hlen, rfl⟩⟩
  | mapped =>
      obtain ⟨hlen, rfl⟩ := h
      refine ⟨Nat.le_refl _, ?_⟩
      dsimp only [advanceOn]
      rw [if_pos (magic_zero len)]
      exact .inl ⟨hlen, rfl⟩
  | fresh =>
      obtain ⟨hlen, rfl⟩ := h
      refine ⟨Nat.le_refl _, ?_⟩
      dsimp only [advanceOn]
      rw [if_pos (magic_zero len)]
      exact .inl ⟨hlen, rfl⟩
  | headers i =>
      obtain ⟨hlen, rfl⟩ := h
      dsimp only [advanceOn]
      split
      · exact ⟨Nat.le_refl _, .inl ⟨hlen, writeFree_zero len i _⟩⟩
      · exact ⟨Nat.le_refl _, .inl ⟨hlen, rfl⟩⟩
  | format =>
      obtain ⟨hlen, rfl⟩ := h
      exact ⟨Nat.le_refl _, .inl ⟨hlen, rfl⟩⟩
  | magic =>
      obtain ⟨hlen, rfl⟩ := h
      exact ⟨Nat.le_refl _, .inr (.inr ⟨rfl, hlen, blank_eq len config.multiProducer⟩)⟩
  | idle | opening | stating | mapping | polling _ | checking _ | recovering _ | holding
  | failed _ => exact h.elim

/-- A recovery that goes on is served, and one that is over leaves a handle or
an error of its own. -/
theorem recovered_served {result : RecoveryResult} {bound : ℕ}
    (hmode : config.multiProducer = mode) (hneed : needLen config ≤ len)
    (h : RecoveryCall.Continues config.capacity bound result) :
    Served mode config len (recovered result) := by
  cases result with
  | call next => exact ⟨hmode, hneed, h.1⟩
  | done => exact hmode
  | inconsistent | unflushed => exact ⟨by decide, fun h => absurd h (by decide)⟩

/-- **Behind the magic, who is served stays served**, and the file changes by
the writes of handles and recoveries. -/
theorem advanceOn_served (choice : InitChoice) (h : Served mode config file.len phase)
    (hmagic : file.magic = regionMagic mode) (hformat : file.format = REGION_FORMAT) :
    Served mode config file.len (advanceOn config (needLen config) choice file phase).1 ∧
      (advanceOn config (needLen config) choice file phase).2
        = file.writeAll (InitState.writes config phase choice (some file)) := by
  cases phase with
  | idle => exact ⟨trivial, rfl⟩
  | opening =>
      refine ⟨?_, rfl⟩
      dsimp only [advanceOn]
      split
      · exact ⟨by decide, fun h => absurd h (by decide)⟩
      · trivial
  | stating =>
      refine ⟨?_, rfl⟩
      dsimp only [advanceOn]
      split
      · exact ⟨by decide, fun h => absurd h (by decide)⟩
      · split
        · assumption
        · split
          · exact ⟨by decide, fun h => absurd h (by decide)⟩
          · trivial
  | mapping =>
      refine ⟨?_, rfl⟩
      dsimp only [advanceOn]
      split
      · exact ⟨by decide, fun h => absurd h (by decide)⟩
      · exact h
  | polling who =>
      cases who with
      | creator | initialiser => exact h.elim
      | opener =>
          refine ⟨?_, rfl⟩
          dsimp only [advanceOn]
          rw [hmagic]
          split
          · rename_i heq
            exact ⟨rfl, (regionMagic_inj heq).symm, h⟩
          · rename_i hne
            rw [if_pos (regionMagic_ne_zero mode)]
            exact ⟨by decide, fun _ heq => hne (congrArg regionMagic heq.symm)⟩
  | checking who =>
      obtain ⟨rfl, hmode, hneed⟩ := h
      refine ⟨?_, rfl⟩
      dsimp only [advanceOn]
      rw [hformat, if_neg (not_not.2 rfl), if_neg (by decide)]
      exact ⟨hmode, hneed, (RecoveryCall.start_bounded config).1⟩
  | recovering call =>
      obtain ⟨hmode, hneed, hwithin⟩ := h
      exact ⟨recovered_served hmode hneed (RecoveryCall.next_continues file _ _ hwithin), rfl⟩
  | holding =>
      cases choice with
      | write offset bytes =>
          refine ⟨h, ?_⟩
          dsimp only [advanceOn, InitState.writes]
          split <;> rfl
      | next | fail | giveUp | gone => exact ⟨h, rfl⟩
  | failed err => exact ⟨h, rfl⟩
  | created | sized | mapped | fresh | headers _ | format | magic => exact h.elim

theorem fileLen_error {err : Failure} (h : fileLen config = .error err) :
    err = .ofChannel (.invalidConfig "slot_size is too large") ∨
      err = .ofChannel (.invalidConfig "storage size overflow") := by
  rw [fileLen] at h
  cases hsize : persistentRegionSlotSize config with
  | error err' =>
      rw [hsize] at h
      obtain rfl := Except.error.inj h
      rw [persistentRegionSlotSize] at hsize
      split at hsize
      · cases hsize
      · exact .inl (Except.error.inj hsize).symm
  | ok size =>
      rw [hsize] at h
      have htotal : totalLen config.capacity size = .error err := h
      rw [totalLen] at htotal
      split at htotal
      · cases htotal
      · exact .inr (Except.error.inj htotal).symm

theorem validate_error {err : Failure} (h : config.validate = .error err) :
    err = .ofChannel (.invalidConfig "capacity must be greater than zero") ∨
      err = .ofChannel (.invalidConfig "slot_size must be greater than zero") := by
  rw [SpscConfig.validate] at h
  split at h
  · exact .inl (Except.error.inj h).symm
  · split at h
    · exact .inr (Except.error.inj h).symm
    · cases h

/-- What a configuration is rejected with is not what a region is. -/
theorem config_error {err : Failure}
    (h : (do config.validate; fileLen config : Except Failure ℕ) = .error err) :
    err ≠ modeMismatch ∧ err ≠ unsupportedFormat := by
  cases hvalid : config.validate with
  | error err' =>
      rw [hvalid] at h
      obtain rfl := Except.error.inj h
      rcases validate_error hvalid with rfl | rfl <;> exact ⟨by decide, by decide⟩
  | ok u =>
      rw [hvalid] at h
      rcases fileLen_error h with rfl | rfl <;> exact ⟨by decide, by decide⟩

/-- **The first access**: the configuration is rejected, or the file is there
or cannot be made, or the process has made it. -/
theorem advance_idle (config : SpscConfig) (choice : InitChoice) (found : Option RegionFile) :
    (∃ err, advance config choice found idle = (failed err, found) ∧
        err ≠ modeMismatch ∧ err ≠ unsupportedFormat) ∨
      advance config choice found idle = (opening, found) ∨
      (found = none ∧ config.validate = .ok () ∧ (∃ len, fileLen config = .ok len) ∧
        advance config choice found idle = (created, some (.zero 0))) := by
  cases hconfig : (do config.validate; fileLen config : Except Failure ℕ) with
  | error err =>
      refine .inl ⟨err, ?_, config_error hconfig⟩
      simp only [advance, hconfig]
  | ok len =>
      cases found with
      | some file => exact .inr (.inl (by simp only [advance, hconfig]))
      | none =>
          by_cases hfail : choice = .fail
          · exact .inr (.inl (by simp only [advance, hconfig, if_pos hfail]))
          · refine .inr (.inr ⟨rfl, ?_, ?_, by simp only [advance, hconfig, if_neg hfail]⟩)
            · cases hvalid : config.validate with
              | error err =>
                  rw [hvalid] at hconfig
                  cases hconfig
              | ok u => rfl
            · cases hvalid : config.validate with
              | error err =>
                  rw [hvalid] at hconfig
                  cases hconfig
              | ok u =>
                  rw [hvalid] at hconfig
                  exact ⟨len, hconfig⟩

theorem advance_some (h : phase ≠ idle) :
    advance config choice (some file) phase
      = ((phase.advanceOn config (needLen config) choice file).1,
        some (phase.advanceOn config (needLen config) choice file).2) := by
  cases phase with
  | idle => exact absurd rfl h
  | created | sized | mapped | fresh | headers _ | format | magic => rfl
  | opening | stating | mapping | polling _ | checking _ | recovering _ | holding | failed _ => rfl

end InitPhase

open InitState

/-! ## The stages follow one another -/

section

variable {configs : ℕ → SpscConfig} {s : InitState} {p : ℕ} {choice : InitChoice}

@[simp] theorem step_file : (s.step configs (p, choice)).file
    = ((s.phases p).advance (configs p) choice s.file).2 := rfl

@[simp] theorem step_written : (s.step configs (p, choice)).written
    = s.written ++ writes (configs p) (s.phases p) choice s.file := rfl

theorem step_phase : (s.step configs (p, choice)).phases p
    = ((s.phases p).advance (configs p) choice s.file).1 := if_pos rfl

theorem step_phase_ne {q : ℕ} (h : q ≠ p) : (s.step configs (p, choice)).phases q = s.phases q :=
  if_neg h

theorem step_phases {P : ℕ → InitPhase → Prop}
    (hp : P p ((s.phases p).advance (configs p) choice s.file).1)
    (h : ∀ q, q ≠ p → P q (s.phases q)) (q : ℕ) : P q ((s.step configs (p, choice)).phases q) := by
  by_cases hq : q = p
  · subst hq
    rw [step_phase]
    exact hp
  · rw [step_phase_ne hq]
    exact h q hq

theorem writes_outside {need len : ℕ} {phase : InitPhase} (config : SpscConfig)
    (choice : InitChoice) (found : Option RegionFile) (h : Outside need len phase) :
    writes config phase choice found = [] := by
  unfold writes
  split
  · exact h.elim
  · exact h.elim
  · rfl

theorem writes_filled {len : ℕ} {phase : InitPhase} {file : RegionFile} (config : SpscConfig)
    (choice : InitChoice) (found : Option RegionFile) (h : Filled len phase file) :
    writes config phase choice found = [] := by
  unfold writes
  split
  · exact h.elim
  · exact h.elim
  · rfl

theorem advance_outside_none {need len : ℕ} {phase : InitPhase} (config : SpscConfig)
    (choice : InitChoice) (h : Outside need len phase) :
    ((phase.advance config choice none).2 = none ∧
        Outside need len (phase.advance config choice none).1) ∨
      (config.validate = .ok () ∧ (∃ len, fileLen config = .ok len) ∧
        phase.advance config choice none = (.created, some (.zero 0))) := by
  cases phase with
  | idle =>
      rcases advance_idle config choice none with ⟨err, heq, herr⟩ | heq | ⟨-, hvalid, hlen, heq⟩
      · rw [heq]
        exact .inl ⟨rfl, herr⟩
      · rw [heq]
        exact .inl ⟨rfl, trivial⟩
      · exact .inr ⟨hvalid, hlen, heq⟩
  | opening => exact .inl ⟨rfl, storageIo_outside _ _ _⟩
  | stating | mapping | polling _ | failed _ => exact .inl ⟨rfl, h⟩
  | created | sized | mapped | fresh | headers _ | format | magic | checking _ | recovering _
  | holding => exact h.elim

theorem advance_outside_some {phase : InitPhase} (config : SpscConfig) (choice : InitChoice)
    {file : RegionFile} (h : Outside (needLen config) file.len phase) (hmagic : file.magic = 0) :
    (phase.advance config choice (some file)).2 = some file ∧
      Outside (needLen config) file.len (phase.advance config choice (some file)).1 := by
  by_cases hidle : phase = .idle
  · subst hidle
    rcases advance_idle config choice (some file) with ⟨err, heq, herr⟩ | heq | ⟨hnone, -⟩
    · rw [heq]
      exact ⟨rfl, herr⟩
    · rw [heq]
      exact ⟨rfl, trivial⟩
    · cases hnone
  · obtain ⟨hfile, hout⟩ := advanceOn_outside config choice h hmagic
    rw [advance_some hidle]
    exact ⟨congrArg some hfile, hout⟩

theorem served_of_outside {mode : Bool} {config : SpscConfig} {phase : InitPhase} {len : ℕ}
    (h : Outside (needLen config) len phase) : Served mode config len phase := by
  cases phase with
  | idle | opening | stating => trivial
  | mapping => exact h
  | polling who =>
      cases who with
      | creator | initialiser => exact h.elim
      | opener => exact h
  | failed err => exact ⟨h.2, fun heq => absurd heq h.1⟩
  | created | sized | mapped | fresh | headers _ | format | magic | checking _ | recovering _
  | holding => exact h.elim

theorem magic_writeAll {written : List (ℕ × Bytes)} : ∀ {base : RegionFile},
    (∀ w ∈ written, InRegion base w.1 w.2) →
      (base.writeAll written).magic = base.magic ∧
        (base.writeAll written).format = base.format ∧ (base.writeAll written).len = base.len := by
  induction written with
  | nil => exact fun _ => ⟨rfl, rfl, rfl⟩
  | cons w written ih =>
      intro base h
      have hin : ∀ v ∈ written, InRegion (base.write w.1 w.2) v.1 v.2 := fun v hv =>
        h v (List.mem_cons_of_mem w hv)
      obtain ⟨hmagic, hformat, hlen⟩ := ih hin
      obtain ⟨hmagic', hformat'⟩ : (base.write w.1 w.2).magic = base.magic ∧ _ :=
        magic_write (h w List.mem_cons_self).2
      exact ⟨hmagic.trans hmagic', hformat.trans hformat', hlen⟩

theorem writeAll_append (base : RegionFile) (written more : List (ℕ × Bytes)) :
    base.writeAll (written ++ more) = (base.writeAll written).writeAll more := List.foldl_append

/-- What handles wrote since the region was created. -/
theorem written_writeAll {config : SpscConfig} {base : RegionFile}
    (hbase : createFile config = .ok base) {written : List (ℕ × Bytes)}
    (h : ∀ w ∈ written, InRegion base w.1 w.2) : Written config (base.writeAll written) := by
  induction written using List.reverseRecOn with
  | nil => exact .created hbase
  | append_singleton written w ih =>
      have hin : ∀ v ∈ written, InRegion base v.1 v.2 := fun v hv =>
        h v (List.mem_append_left _ hv)
      obtain ⟨hlen, hmisses⟩ := h w (List.mem_append_right _ List.mem_cons_self)
      rw [writeAll_append]
      exact .write (ih hin) ((magic_writeAll hin).2.2.symm ▸ hlen) hmisses

/-- A handle, and a recovery, write into the region. -/
theorem inRegion_of_mem_writes {mode : Bool} {config : SpscConfig} {phase : InitPhase}
    {file : RegionFile} {w : ℕ × Bytes} (hserved : Served mode config file.len phase)
    (h : w ∈ writes config phase choice (some file)) : InRegion file w.1 w.2 := by
  unfold writes at h
  split at h
  · rename_i heq
    obtain rfl := Option.some.inj heq
    split at h
    · obtain rfl := List.mem_singleton.1 h
      assumption
    · cases h
  · rename_i heq
    obtain rfl := Option.some.inj heq
    exact RecoveryCall.stores_inRegion hserved.2.2 hserved.2.1 h
  · cases h

theorem served_advance {mode : Bool} {config : SpscConfig} {phase : InitPhase} {file : RegionFile}
    (choice : InitChoice) (h : Served mode config file.len phase)
    (hmagic : file.magic = regionMagic mode) (hformat : file.format = REGION_FORMAT) :
    Served mode config file.len (phase.advance config choice (some file)).1 ∧
      (phase.advance config choice (some file)).2
        = some (file.writeAll (writes config phase choice (some file))) := by
  by_cases hidle : phase = .idle
  · subst hidle
    rcases advance_idle config choice (some file) with ⟨err, heq, herr⟩ | heq | ⟨hnone, -⟩
    · rw [heq]
      exact ⟨⟨herr.2, fun h => absurd h herr.1⟩, rfl⟩
    · rw [heq]
      exact ⟨trivial, rfl⟩
    · cases hnone
  · obtain ⟨hserved, hfile⟩ := advanceOn_served choice h hmagic hformat
    rw [advance_some hidle]
    exact ⟨hserved, congrArg some hfile⟩

/-- Until a creator is done there is no magic. -/
theorem filled_magic {len : ℕ} {phase : InitPhase} {file : RegionFile} (h : Filled len phase file) :
    file.magic = 0 ∧ phase ≠ .idle := by
  cases phase with
  | created =>
      obtain rfl : file = .zero 0 := h
      exact ⟨magic_zero 0, fun h => by cases h⟩
  | sized | mapped | fresh | headers _ =>
      obtain ⟨-, rfl⟩ := h
      exact ⟨magic_zero len, fun h => by cases h⟩
  | format =>
      obtain ⟨-, rfl⟩ := h
      refine ⟨?_, fun h => by cases h⟩
      show UInt32.ofNat (leNat ((Area.zero.write PIN_FLOOR_OFFSET
        (leBytes 8 PIN_FLOOR_NONE)).read MAGIC_OFFSET 4)) = 0
      decide
  | magic =>
      obtain ⟨-, rfl⟩ := h
      refine ⟨?_, fun h => by cases h⟩
      show UInt32.ofNat (leNat (((Area.zero.write PIN_FLOOR_OFFSET
        (leBytes 8 PIN_FLOOR_NONE)).write FORMAT_OFFSET
          (leBytes 4 REGION_FORMAT.toNat)).read MAGIC_OFFSET 4)) = 0
      decide
  | idle | opening | stating | mapping | polling _ | checking _ | recovering _ | holding
  | failed _ => exact h.elim

/-- Behind a creator that is done the file changes by the writes of handles
and recoveries. -/
theorem RegionReady.step (h : RegionReady configs s) (i : ℕ × InitChoice) :
    RegionReady configs (s.step configs i) := by
  obtain ⟨p, choice⟩ := i
  obtain ⟨c, base, hbase, hfile, hin, hserved⟩ := h
  obtain ⟨hmagic, hformat⟩ := magic_base hbase
  obtain ⟨hmagic', hformat', hlen'⟩ := magic_writeAll hin
  have hservedp : Served (configs c).multiProducer (configs p) (base.writeAll s.written).len
      (s.phases p) := hlen'.symm ▸ hserved p
  obtain ⟨hp, hsome⟩ := served_advance choice hservedp (hmagic'.trans hmagic)
    (hformat'.trans hformat)
  refine ⟨c, base, hbase, ?_, fun w hw => ?_, step_phases
    (P := fun q => Served (configs c).multiProducer (configs q) base.len) ?_ fun q _ => hserved q⟩
  · rw [step_file, step_written, hfile, hsome, writeAll_append]
  · rw [step_written, hfile] at hw
    rcases List.mem_append.1 hw with hw | hw
    · exact hin w hw
    · obtain ⟨hle, hmisses⟩ := inRegion_of_mem_writes hservedp hw
      exact ⟨hlen' ▸ hle, hmisses⟩
  · rw [hfile, ← hlen']
    exact hp

/-- **Every access keeps to the stages.** -/
theorem Stage.step (h : Stage configs s) (i : ℕ × InitChoice) :
    Stage configs (s.step configs i) := by
  obtain ⟨p, choice⟩ := i
  cases h with
  | absent hfile hwritten hout =>
      have hw : (s.step configs (p, choice)).written = [] := by
        rw [step_written, hwritten, writes_outside _ _ _ (hout p)]
        rfl
      rcases advance_outside_none (configs p) choice (hout p) with
        ⟨hnone, hp⟩ | ⟨hvalid, ⟨len, hlen⟩, heq⟩
      · refine .absent ?_ hw (step_phases (P := fun q => Outside (needLen (configs q)) 0) ?_
          fun q _ => hout q)
        · rw [step_file, hfile, hnone]
        · rw [hfile]
          exact hp
      · refine .filling p len (.zero 0) hvalid hlen ?_ ?_ hw fun q hq => ?_
        · rw [step_file, hfile, heq]
        · rw [step_phase, hfile, heq]
          exact rfl
        · rw [step_phase_ne hq]
          exact hout q
  | abandoned len hfile hwritten hout =>
      have houtp : Outside (needLen (configs p)) (RegionFile.zero len).len (s.phases p) := hout p
      obtain ⟨hsame, hp⟩ := advance_outside_some (configs p) choice houtp (magic_zero len)
      refine .abandoned len ?_ ?_ (step_phases (P := fun q => Outside (needLen (configs q)) len) ?_
        fun q _ => hout q)
      · rw [step_file, hfile, hsame]
      · rw [step_written, hwritten, writes_outside _ _ _ (hout p)]
        rfl
      · rw [hfile]
        exact hp
  | filling c len file hvalid hlen hfile hfilled hwritten hout =>
      obtain ⟨hmagic, hidle⟩ := filled_magic hfilled
      by_cases hp : p = c
      · subst hp
        have hneed : needLen (configs p) = len := needLen_eq hlen
        have hw : (s.step configs (p, choice)).written = [] := by
          rw [step_written, hwritten, writes_filled _ _ _ hfilled]
          rfl
        obtain ⟨hgrows, hnext⟩ := advanceOn_filled (configs p) choice hfilled
        have hothers : ∀ q, q ≠ p → Outside (needLen (configs q))
            ((s.phases p).advanceOn (configs p) len choice file).2.len
            ((s.step configs (p, choice)).phases q) := by
          intro q hq
          rw [step_phase_ne hq]
          exact (hout q hq).mono hgrows
        have hadvance : (s.phases p).advance (configs p) choice s.file
            = (((s.phases p).advanceOn (configs p) len choice file).1,
              some ((s.phases p).advanceOn (configs p) len choice file).2) := by
          rw [hfile, advance_some hidle, hneed]
        rcases hnext with hfilled | ⟨hopening, n, hzero⟩ | ⟨hholds, hle, hblank⟩
        · refine .filling p len ((s.phases p).advanceOn (configs p) len choice file).2 hvalid hlen
            ?_ ?_ hw hothers
          · rw [step_file, hadvance]
          · rw [step_phase, hadvance]
            exact hfilled
        · refine .abandoned n ?_ hw fun q => ?_
          · rw [step_file, hadvance, hzero]
          · by_cases hq : q = p
            · rw [hq, step_phase, hadvance, hopening]
              exact trivial
            · rw [hzero] at hothers
              exact hothers q hq
        · refine .ready ⟨p, _, createFile_eq hvalid hlen hle, ?_, ?_, fun q => ?_⟩
          · rw [step_file, hadvance, hw, hblank]
            rfl
          · rw [hw]
            exact fun w hmem => absurd hmem List.not_mem_nil
          · by_cases hq : q = p
            · rw [hq, step_phase, hadvance, hholds]
              exact rfl
            · rw [hblank] at hothers
              exact served_of_outside (hothers q hq)
      · obtain ⟨hsame, hstays⟩ := advance_outside_some (configs p) choice (hout p hp)
          hmagic
        refine .filling c len file hvalid hlen ?_ ?_ ?_ (step_phases
          (P := fun q phase => q ≠ c → Outside (needLen (configs q)) file.len phase)
          (fun _ => ?_) fun q _ => hout q)
        · rw [step_file, hfile, hsame]
        · rw [step_phase_ne (Ne.symm hp)]
          exact hfilled
        · rw [step_written, hwritten, writes_outside _ _ _ (hout p hp)]
          rfl
        · rw [hfile]
          exact hstays
  | ready hready => exact .ready (hready.step (p, choice))

theorem stage_start : Stage configs .start := .absent rfl rfl fun _ => trivial

/-- **Every run keeps to the stages.** -/
theorem stage_run (run : List (ℕ × InitChoice)) :
    Stage configs (Run.exec (InitState.step configs) .start run) :=
  Run.invariant_exec (Stage configs) (fun _ i h => h.step i) run stage_start

theorem Stage.not_outside (h : Stage configs s)
    (hp : ∀ len, ¬ Outside (needLen (configs p)) len (s.phases p)) :
    (∃ len file, fileLen (configs p) = .ok len ∧ s.file = some file ∧
      Filled len (s.phases p) file ∧
      ∀ q, q ≠ p → Outside (needLen (configs q)) file.len (s.phases q)) ∨
    RegionReady configs s := by
  cases h with
  | absent _ _ hout => exact absurd (hout p) (hp 0)
  | abandoned len _ _ hout => exact absurd (hout p) (hp len)
  | filling c len file _ hlen hfile hfilled _ hout =>
      by_cases hpc : p = c
      · subst hpc
        exact .inl ⟨len, file, hlen, hfile, hfilled, hout⟩
      · exact absurd (hout p hpc) (hp file.len)
  | ready hready => exact .inr hready

theorem Stage.ready_of_holding (h : Stage configs s) (hp : s.phases p = .holding) :
    RegionReady configs s := by
  have hnot : ∀ len, ¬ Outside (needLen (configs p)) len (s.phases p) := by
    rw [hp]
    exact fun _ h => h
  rcases h.not_outside hnot with ⟨_, _, _, _, hfilled, _⟩ | hready
  · rw [hp] at hfilled
    exact hfilled.elim
  · exact hready

theorem not_outside_of_initialises {phase : InitPhase} (h : phase.Initialises) (need len : ℕ) :
    ¬ Outside need len phase := by
  intro hout
  cases phase with
  | idle | opening | stating | mapping | polling _ | checking _ | recovering _ | holding
  | failed _ => exact h.elim
  | created | sized | mapped | fresh | headers _ | format | magic => exact hout.elim

theorem not_served_of_initialises {mode : Bool} {config : SpscConfig} {len : ℕ}
    {phase : InitPhase} (h : phase.Initialises) : ¬ Served mode config len phase := by
  intro hserved
  cases phase with
  | idle | opening | stating | mapping | polling _ | checking _ | recovering _ | holding
  | failed _ => exact h.elim
  | created | sized | mapped | fresh | headers _ | format | magic => exact hserved.elim

/-- A magic that is there is a creator's own, or the file was opened; and a
format that is there is the format. -/
theorem Stage.met (h : Stage configs s) :
    (∀ who, who ≠ .opener → s.phases p ≠ .polling who ∧ s.phases p ≠ .checking who) ∧
      s.phases p ≠ .failed unsupportedFormat ∧
      (s.phases p = .failed modeMismatch →
        ∃ c, (configs p).multiProducer ≠ (configs c).multiProducer) := by
  have hready : ∀ phase, s.phases p = phase → (∀ need len, ¬ Outside need len phase) →
      (∀ len file, ¬ Filled len phase file) →
        ∃ c len, Served (configs c).multiProducer (configs p) len phase := by
    rintro phase rfl hout hfilled
    rcases h.not_outside (hout _) with ⟨len, file, -, -, hin, -⟩ | ⟨c, base, -, -, -, hserved⟩
    · exact absurd hin (hfilled len file)
    · exact ⟨c, base.len, hserved p⟩
  refine ⟨fun who hwho => ⟨fun hp => ?_, fun hp => ?_⟩, fun hp => ?_, fun hp => ?_⟩
  · cases who with
    | opener => exact hwho rfl
    | creator | initialiser =>
        obtain ⟨c, len, hserved⟩ := hready _ hp (fun _ _ hout => hout) (fun _ _ hin => hin)
        exact hserved
  · obtain ⟨c, len, hserved⟩ := hready _ hp (fun _ _ hout => hout) (fun _ _ hin => hin)
    exact hwho hserved.1
  · obtain ⟨c, len, hserved⟩ := hready _ hp (fun _ _ hout => hout.2 rfl) (fun _ _ hin => hin)
    exact hserved.1 rfl
  · obtain ⟨c, len, hserved⟩ := hready _ hp (fun _ _ hout => hout.1 rfl) (fun _ _ hin => hin)
    exact ⟨c, hserved.2 rfl⟩

end

/-- **Whoever holds a handle holds it on a region that is initialised, and
stays so.** In every run one process at a time initialises, and none while a
handle is held; the file behind a handle is the one a lone `create` leaves,
with every write of a handle or of a recovery on it, in order and none lost,
and all handles are of the mode it was created in. A creator never meets a
magic, neither in `create_or_open` nor in `initialize_region`. Where all
processes name one mode, none fails over the mode or the format. -/
theorem handle_file (configs : ℕ → SpscConfig) (run : List (ℕ × InitChoice)) :
    let s := Run.exec (InitState.step configs) .start run
    (∀ p q, (s.phases p).Initialises → (s.phases q).Initialises → p = q) ∧
      (∀ p, s.phases p = .holding →
        (∀ q, ¬ (s.phases q).Initialises) ∧
        ∃ c base, createFile (configs c) = .ok base ∧
          s.file = some (base.writeAll s.written) ∧
          Written (configs c) (base.writeAll s.written) ∧
          ∀ q, s.phases q = .holding → (configs q).multiProducer = (configs c).multiProducer) ∧
      (∀ p who, who ≠ .opener → s.phases p ≠ .polling who ∧ s.phases p ≠ .checking who) ∧
      (∀ p, s.phases p ≠ .failed unsupportedFormat) ∧
      ∀ p, s.phases p = .failed modeMismatch →
        ∃ q, (configs q).multiProducer ≠ (configs p).multiProducer := by
  intro s
  have hstage : Stage configs s := stage_run run
  refine ⟨fun p q hp hq => ?_, fun p hp => ?_, fun p => hstage.met.1, fun p => hstage.met.2.1,
    fun p hp => ?_⟩
  · rcases hstage.not_outside (not_outside_of_initialises hp _) with
      ⟨_, _, _, _, _, hout⟩ | ⟨_, _, _, _, _, hserved⟩
    · by_contra hne
      exact not_outside_of_initialises hq _ _ (hout q (Ne.symm hne))
    · exact absurd (hserved p) (not_served_of_initialises hp)
  · obtain ⟨c, base, hbase, hfile, hin, hserved⟩ := hstage.ready_of_holding hp
    refine ⟨fun q hq => not_served_of_initialises hq (hserved q), c, base, hbase, hfile,
      written_writeAll hbase hin, fun q hq => ?_⟩
    have hmode := hserved q
    rw [hq] at hmode
    exact hmode
  · obtain ⟨c, hne⟩ := hstage.met.2.2 hp
    exact ⟨c, Ne.symm hne⟩

/-! ## Who gets a handle -/

namespace InitPhase

/-- How many accesses are left before the handle. -/
def rank (capacity : ℕ) : InitPhase → ℕ
  | created => capacity + 7
  | sized => capacity + 6
  | mapped => capacity + 5
  | fresh => capacity + 4
  | headers i => capacity - i + 3
  | format => 2
  | magic => 1
  | idle => recoveryCalls capacity + 6
  | opening => recoveryCalls capacity + 5
  | stating => recoveryCalls capacity + 4
  | mapping => recoveryCalls capacity + 3
  | polling _ => recoveryCalls capacity + 2
  | checking _ => recoveryCalls capacity + 1
  | recovering call => call.left capacity
  | holding | failed _ => 0

/-- The process has not failed, or failed over the cursors of the ring. -/
def Fit (phase : InitPhase) : Prop := ∀ err, phase = failed err → err = inconsistentCursors

variable {phase : InitPhase} {choice : InitChoice}

/-- A creator whose calls into the system succeed comes one access closer. -/
theorem rank_filled (h : Filled len phase file) (hle : len ≤ isizeMax) (hok : choice ≠ .fail) :
    ((advanceOn config len choice file phase).1.Initialises ∨
        (advanceOn config len choice file phase).1 = holding) ∧
      rank config.capacity (advanceOn config len choice file phase).1
        ≤ rank config.capacity phase - 1 := by
  cases phase with
  | created =>
      have hlen : ¬ (choice = .fail ∨ isizeMax < len) := by
        rintro (h | h)
        · exact hok h
        · exact absurd hle (Nat.not_le.2 h)
      dsimp only [advanceOn]
      rw [if_neg hlen]
      exact ⟨.inl trivial, Nat.le_refl _⟩
  | sized =>
      dsimp only [advanceOn]
      rw [if_neg hok]
      exact ⟨.inl trivial, Nat.le_refl _⟩
  | mapped =>
      obtain ⟨-, rfl⟩ := h
      dsimp only [advanceOn]
      rw [if_pos (magic_zero len)]
      exact ⟨.inl trivial, Nat.le_refl _⟩
  | fresh =>
      obtain ⟨-, rfl⟩ := h
      dsimp only [advanceOn]
      rw [if_pos (magic_zero len)]
      exact ⟨.inl trivial, Nat.le_refl _⟩
  | headers i =>
      dsimp only [advanceOn]
      split
      · refine ⟨.inl trivial, ?_⟩
        simp only [rank]
        omega
      · refine ⟨.inl trivial, ?_⟩
        simp only [rank]
        omega
  | format => exact ⟨.inl trivial, Nat.le_refl _⟩
  | magic => exact ⟨.inr rfl, Nat.le_refl _⟩
  | idle | opening | stating | mapping | polling _ | checking _ | recovering _ | holding
  | failed _ => exact h.elim

/-- A recovery behind a call: one call less, a handle, or the cursors. -/
theorem rank_recovered {result : RecoveryResult} {capacity bound : ℕ}
    (h : RecoveryCall.Continues capacity bound result) (hflushed : result ≠ .unflushed) :
    (recovered result).Fit ∧ rank capacity (recovered result) ≤ bound := by
  cases result with
  | call next => exact ⟨(fun err h => by cases h), h.2⟩
  | done => exact ⟨(fun err h => by cases h), Nat.zero_le _⟩
  | inconsistent => exact ⟨(fun err h => (failed.inj h).symm), Nat.zero_le _⟩
  | unflushed => exact absurd rfl hflushed

/-- Behind the magic a process whose calls into the system succeed comes one
access closer. -/
theorem rank_served {mode : Bool} (h : Served mode config file.len phase) (hfit : phase.Fit)
    (hidle : phase ≠ idle) (hmode : config.multiProducer = mode)
    (hmagic : file.magic = regionMagic mode) (hformat : file.format = REGION_FORMAT)
    (hlen : needLen config ≤ file.len) (hok : choice ≠ .fail) :
    (advanceOn config (needLen config) choice file phase).1.Fit ∧
      rank config.capacity (advanceOn config (needLen config) choice file phase).1
        ≤ rank config.capacity phase - 1 := by
  cases phase with
  | idle => exact absurd rfl hidle
  | opening =>
      dsimp only [advanceOn]
      rw [if_neg hok]
      exact ⟨(fun err h => by cases h), Nat.le_refl _⟩
  | stating =>
      dsimp only [advanceOn]
      rw [if_neg hok, if_pos hlen]
      exact ⟨(fun err h => by cases h), Nat.le_refl _⟩
  | mapping =>
      dsimp only [advanceOn]
      rw [if_neg hok]
      exact ⟨(fun err h => by cases h), Nat.le_refl _⟩
  | polling who =>
      dsimp only [advanceOn]
      rw [if_pos (hmagic.trans (congrArg regionMagic hmode.symm))]
      exact ⟨(fun err h => by cases h), Nat.le_refl _⟩
  | checking who =>
      obtain ⟨rfl, -⟩ := h
      dsimp only [advanceOn]
      rw [if_neg (not_not.2 hformat), if_neg (by decide)]
      exact ⟨(fun err h => by cases h), (RecoveryCall.start_bounded config).2⟩
  | recovering call =>
      dsimp only [advanceOn]
      have hflushed := RecoveryCall.next_flushed call config file (choice = .gone)
      rw [decide_eq_false hok]
      exact rank_recovered (RecoveryCall.next_continues file _ false h.2.2) hflushed
  | holding =>
      cases choice with
      | next | fail | giveUp | gone | write _ _ => exact ⟨(fun err h => by cases h), Nat.le_refl _⟩
  | failed err => exact ⟨hfit, Nat.le_refl _⟩
  | created | sized | mapped | fresh | headers _ | format | magic => exact h.elim

theorem over_of_rank {capacity : ℕ} (h : rank capacity phase = 0) (hfit : phase.Fit) :
    phase = holding ∨ phase = failed inconsistentCursors := by
  cases phase with
  | holding => exact .inl rfl
  | failed err => exact .inr (congrArg failed (hfit err rfl))
  | recovering call => exact absurd h (Nat.ne_of_gt (RecoveryCall.left_pos capacity call))
  | idle | opening | stating | mapping | polling _ | checking _ => cases h
  | created | sized | mapped | fresh | headers _ | format | magic =>
      simp only [rank] at h
      omega

theorem rank_le_of_served {mode : Bool} {config : SpscConfig} (h : Served mode config len phase) :
    rank config.capacity phase ≤ recoveryCalls config.capacity + 6 := by
  cases phase with
  | recovering call => exact Nat.le_trans (RecoveryCall.left_le h.2.2) (Nat.le_add_right _ _)
  | idle | opening | stating | mapping | polling _ | checking _ | holding | failed _ =>
      simp only [rank]
      omega
  | created | sized | mapped | fresh | headers _ | format | magic => exact h.elim

theorem rank_le_of_initialises (capacity : ℕ) (h : phase.Initialises ∨ phase = holding) :
    rank capacity phase ≤ capacity + 7 := by
  rcases h with h | rfl
  · cases phase with
    | created | sized | mapped | fresh | headers _ | format | magic =>
        simp only [rank]
        omega
    | idle | opening | stating | mapping | polling _ | checking _ | recovering _ | holding
    | failed _ => exact h.elim
  · exact Nat.zero_le _

theorem Initialises.eq_holding {capacity : ℕ} (h : phase.Initialises ∨ phase = holding)
    (hrank : rank capacity phase = 0) : phase = holding := by
  rcases h with h | h
  · cases phase with
    | created | sized | mapped | fresh | headers _ | format | magic =>
        simp only [rank] at hrank
        omega
    | idle | opening | stating | mapping | polling _ | checking _ | recovering _ | holding
    | failed _ => exact h.elim
  · exact h

end InitPhase

section

variable {configs : ℕ → SpscConfig} {s : InitState} {p : ℕ} {len : ℕ} {more : List (ℕ × InitChoice)}

/-- The accesses of one process. -/
def ownAccess (p : ℕ) (i : ℕ × InitChoice) : Bool := i.1 == p

theorem creator_step (hstage : Stage configs s)
    (hle : ∀ len, fileLen (configs p) = .ok len → len ≤ isizeMax)
    (h : (s.phases p).Initialises ∨ s.phases p = .holding) (i : ℕ × InitChoice)
    (hi : i.1 = p → i.2 ≠ .fail) :
    (((s.step configs i).phases p).Initialises ∨ (s.step configs i).phases p = .holding) ∧
      ((s.step configs i).phases p).rank (configs p).capacity
        ≤ (s.phases p).rank (configs p).capacity - if ownAccess p i then 1 else 0 := by
  obtain ⟨q, choice⟩ := i
  by_cases hq : q = p
  · subst hq
    have hok : choice ≠ .fail := hi rfl
    rw [step_phase, ownAccess, if_pos (by simp)]
    rcases h with h | h
    · rcases hstage.not_outside (not_outside_of_initialises h _) with
        ⟨len, file, hlen, hfile, hfilled, _⟩ | ⟨_, _, _, _, _, hserved⟩
      · rw [hfile, advance_some (filled_magic hfilled).2, needLen_eq hlen]
        exact rank_filled hfilled (hle len hlen) hok
      · exact absurd (hserved q) (not_served_of_initialises h)
    · have hstays : ∀ found, (advance (configs q) choice found .holding).1 = .holding := by
        intro found
        cases found <;> cases choice <;> rfl
      rw [h, hstays]
      exact ⟨.inr rfl, Nat.zero_le _⟩
  · rw [step_phase_ne (Ne.symm hq), ownAccess, if_neg (by simpa using hq)]
    exact ⟨h, Nat.le_refl _⟩

theorem opener_step {config : SpscConfig} (hready : RegionReady (fun _ => config) s)
    (h : (s.phases p).Fit) (i : ℕ × InitChoice) (hi : i.1 = p → i.2 ≠ .fail) :
    ((s.step (fun _ => config) i).phases p).Fit ∧
      ((s.step (fun _ => config) i).phases p).rank config.capacity
        ≤ (s.phases p).rank config.capacity - if ownAccess p i then 1 else 0 := by
  obtain ⟨q, choice⟩ := i
  by_cases hq : q = p
  · subst hq
    have hok : choice ≠ .fail := hi rfl
    rw [step_phase, ownAccess, if_pos (by simp)]
    obtain ⟨c, base, hbase, hfile, hin, hserved⟩ := hready
    obtain ⟨hmagic, hformat⟩ := magic_base hbase
    obtain ⟨hmagic', hformat', hlen'⟩ := magic_writeAll hin
    obtain ⟨hvalid, len, hlen, -, hblank⟩ := createFile_inv hbase
    by_cases hidle : s.phases q = .idle
    · rw [hidle, hfile]
      simp only [advance, hvalid, hlen, bind, Except.bind]
      exact ⟨(fun err h => by cases h), Nat.le_refl _⟩
    · have hneed : needLen config = base.len := by rw [needLen_eq hlen, hblank]
      have hservedq : Served config.multiProducer config (base.writeAll s.written).len
          (s.phases q) := hlen'.symm ▸ hserved q
      rw [hfile, advance_some hidle]
      exact rank_served hservedq h hidle rfl (hmagic'.trans hmagic) (hformat'.trans hformat)
        (Nat.le_of_eq (hneed.trans hlen'.symm)) hok
  · rw [step_phase_ne (Ne.symm hq), ownAccess, if_neg (by simpa using hq)]
    exact ⟨h, Nat.le_refl _⟩

end

/-- **Who gets a handle, and who never does.** Where all processes agree on
the configuration: a process that initialises the region holds a handle after
`capacity + 7` accesses of its own; once anyone holds a handle, every process
that has not failed does after six accesses of its own and the calls of a
recovery, or its recovery found the cursors of the ring inconsistent; and
while a process stops short of its last initialising write, no one else ever
gets a handle. Of the calls of the process itself none fails; the others may
do what they like in between. -/
theorem handle_progress (config : SpscConfig)
    (hle : ∀ len, fileLen config = .ok len → len ≤ isizeMax)
    (run more : List (ℕ × InitChoice)) (p : ℕ) :
    let s := Run.exec (InitState.step fun _ => config) .start run
    let s' := Run.exec (InitState.step fun _ => config) .start (run ++ more)
    ((s.phases p).Initialises → (∀ i ∈ more, i.1 = p → i.2 ≠ .fail) →
      config.capacity + 7 ≤ more.countP (ownAccess p) → s'.phases p = .holding) ∧
    ((∃ q, s.phases q = .holding) → (∀ err, s.phases p ≠ .failed err) →
      (∀ i ∈ more, i.1 = p → i.2 ≠ .fail) →
      recoveryCalls config.capacity + 6 ≤ more.countP (ownAccess p) →
      s'.phases p = .holding ∨ s'.phases p = .failed inconsistentCursors) ∧
    ((s.phases p).Initialises → (∀ i ∈ more, i.1 ≠ p) → ∀ q, s'.phases q ≠ .holding) := by
  intro s s'
  have hstage : Stage (fun _ => config) s := stage_run run
  have happend : s' = Run.exec (InitState.step fun _ => config) s more := Run.exec_append
  refine ⟨fun hinit hown hmany => ?_, ?_, fun hinit hstop q hq => ?_⟩
  · -- the creator's rank falls by one with each access of its own
    have hstart : Stage (fun _ => config) s ∧
        ((s.phases p).Initialises ∨ s.phases p = .holding) := ⟨hstage, .inl hinit⟩
    have hend := Run.invariant_of_forall
      (fun t => Stage (fun _ => config) t ∧ ((t.phases p).Initialises ∨ t.phases p = .holding))
      (fun t i ht hi => ⟨ht.1.step i, (creator_step ht.1 hle ht.2 i hi).1⟩) hown hstart
    have hrank := Run.rank_exec_le (ownAccess p)
      (fun t : InitState => (t.phases p).rank config.capacity)
      (fun t => Stage (fun _ => config) t ∧ ((t.phases p).Initialises ∨ t.phases p = .holding))
      (fun t i ht hi => ⟨ht.1.step i, (creator_step ht.1 hle ht.2 i hi).1⟩)
      (fun t i ht hi => (creator_step ht.1 hle ht.2 i hi).2) hown hstart
    have hbound := rank_le_of_initialises config.capacity hstart.2
    rw [← happend] at hend hrank
    have hzero : (s'.phases p).rank config.capacity = 0 := by omega
    exact Initialises.eq_holding hend.2 hzero
  · rintro ⟨q, hq⟩ hne hown hmany
    have hready : RegionReady (fun _ => config) s := hstage.ready_of_holding hq
    have hstart : RegionReady (fun _ => config) s ∧ (s.phases p).Fit :=
      ⟨hready, fun err h => absurd h (hne err)⟩
    have hend := Run.invariant_of_forall
      (fun t => RegionReady (fun _ => config) t ∧ (t.phases p).Fit)
      (fun t i ht hi => ⟨ht.1.step i, (opener_step ht.1 ht.2 i hi).1⟩) hown hstart
    have hrank := Run.rank_exec_le (ownAccess p)
      (fun t : InitState => (t.phases p).rank config.capacity)
      (fun t => RegionReady (fun _ => config) t ∧ (t.phases p).Fit)
      (fun t i ht hi => ⟨ht.1.step i, (opener_step ht.1 ht.2 i hi).1⟩)
      (fun t i ht hi => (opener_step ht.1 ht.2 i hi).2) hown hstart
    obtain ⟨_, _, _, _, _, hserved⟩ := hready
    have hbound : (s.phases p).rank config.capacity ≤ recoveryCalls config.capacity + 6 :=
      rank_le_of_served (hserved p)
    rw [← happend] at hend hrank
    have hzero : (s'.phases p).rank config.capacity = 0 := by omega
    exact over_of_rank hzero hend.2
  · -- a handle elsewhere would mean that no process initialises
    have hstays : s'.phases p = s.phases p := by
      rw [happend]
      exact Run.invariant_of_forall (fun t : InitState => t.phases p = s.phases p)
        (fun t i ht hi => (step_phase_ne (Ne.symm hi)).trans ht) hstop rfl
    obtain ⟨_, _, _, _, _, hserved⟩ := (stage_run (run ++ more)).ready_of_holding hq
    exact not_served_of_initialises (hstays ▸ hinit) (hserved p)

/-- One slot of sixteen bytes: a creator that another process watches; an
opener that comes when the region is made, while its creator writes a message
of which it recovers the slot; and one that gives up on a creator that
stopped. -/
theorem handle_progress_one :
    (Run.exec (InitState.step fun _ => ⟨1, 16, .raise, none, false⟩) .start
        ([(0, .next), (1, .next)] ++ List.replicate 8 (0, .next))).phases 0 = .holding ∧
      ((Run.exec (InitState.step fun _ => ⟨1, 16, .raise, none, false⟩) .start
          (List.replicate 10 (1, .next) ++
            ((1, .write 32 [1]) :: List.replicate 25 (0, .gone)))).phases 0 = .holding ∨
        (Run.exec (InitState.step fun _ => ⟨1, 16, .raise, none, false⟩) .start
          (List.replicate 10 (1, .next) ++
            ((1, .write 32 [1]) :: List.replicate 25 (0, .gone)))).phases 0
          = .failed inconsistentCursors) ∧
      (Run.exec (InitState.step fun _ => ⟨1, 16, .raise, none, false⟩) .start
        ([(0, .next)] ++ [(1, .next), (1, .next), (1, .giveUp)])).phases 1 ≠ .holding := by
  have hlen : fileLen ⟨1, 16, .raise, none, false⟩ = .ok 146 := by decide
  have hle : ∀ len, fileLen ⟨1, 16, .raise, none, false⟩ = .ok len → len ≤ isizeMax := by
    intro len h
    rw [hlen] at h
    cases h
    decide
  refine ⟨(handle_progress _ hle [(0, .next), (1, .next)] (List.replicate 8 (0, .next)) 0).1 ?_
    (by decide) (by decide),
    (handle_progress _ hle (List.replicate 10 (1, .next))
      ((1, .write 32 [1]) :: List.replicate 25 (0, .gone)) 0).2.1 ⟨1, ?_⟩ ?_ (by decide)
      (by decide),
    (handle_progress _ hle [(0, .next)] [(1, .next), (1, .next), (1, .giveUp)] 0).2.2 ?_
      (by decide) 1⟩
  · exact trivial
  · rfl
  · exact fun err h => by cases h
  · exact trivial

end Dsline
