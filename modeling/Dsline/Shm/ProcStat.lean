import Dsline.Core.Text
import Dsline.Library.Split
import Dsline.Library.Words
import Dsline.Shm.Liveness
/-!
# The process probe on Linux

The start time of a process is the 22nd field of `/proc/<pid>/stat`. The
second field is the name of the process in parentheses, and a name may hold
anything: blanks, digits, closing parentheses. The parser goes by the last
closing parenthesis of the line, and no field behind the name has one, so
that what it reads is the start time whatever the process calls itself
(`probe_of_procfs`), and a classification by it is the truth
(`processLiveness_procfs`).
-/

namespace Dsline

open Split Words

/-! ## The parser -/

/-- `char::is_whitespace`: the characters with the property `White_Space`. -/
def isWhitespace (c : Char) : Bool :=
  let n := c.toNat
  (9 ≤ n && n ≤ 13) || n == 0x20 || n == 0x85 || n == 0xA0 || n == 0x1680 ||
    (0x2000 ≤ n && n ≤ 0x200A) || n == 0x2028 || n == 0x2029 || n == 0x202F || n == 0x205F ||
    n == 0x3000

/-- `u64::from_str`: an optional plus sign followed by digits only. -/
def parseU64 (text : Text) : Option UInt64 :=
  if IsDigits (withoutPlus text) ∧ digitsValue (withoutPlus text) < 2 ^ 64 then
    some (.ofNat (digitsValue (withoutPlus text)))
  else none

/-- What reading the `stat` file of a process brings. -/
inductive StatFile where
  | content (stat : Text)
  /-- There is no such file; the directory of the process may be there. -/
  | notFound (directory : Bool)
  /-- Any other error, and a content that is no UTF-8. -/
  | failed

/-- `read_start_time`. -/
def readStartTime : StatFile → Probe
  | .failed => .failed
  | .notFound directory => if directory then .failed else .absent
  | .content stat =>
      match splitLast ')' stat with
      | none => .failed
      | some (_, afterComm) =>
          -- behind the name the next word is field 3, and field 22 the 20th
          match (words isWhitespace afterComm)[19]? with
          | none => .failed
          | some word =>
              match parseU64 word with
              | none => .failed
              | some startTime => .present startTime

/-- `process_start_time`, by the `stat` files of all pids. -/
def processStartTime (proc : UInt32 → StatFile) (pid : UInt32) : Probe := readStartTime (proc pid)

/-! ## The kernel -/

/-- A number in decimal. -/
def decimal (n : ℕ) : Text := Nat.toDigits 10 n

/-- A field behind the name: no blank in it, and no closing parenthesis. -/
def IsField (field : Text) : Prop := Words.IsWord isWhitespace field ∧ ')' ∉ field

/-- What a `stat` line says of a process besides its pid and its start time:
the name it gave itself, and the fields before and after the start time. -/
structure StatEntry where
  comm : Text
  before : List Text
  after : List Text
  length_before : before.length = 19
  isField : ∀ field ∈ before ++ after, IsField field

/-- The fields of a line from the third on. -/
def StatEntry.fields (entry : StatEntry) (startTime : UInt64) : List Text :=
  entry.before ++ decimal startTime.toNat :: entry.after

/-- The line of a process. -/
def StatEntry.line (entry : StatEntry) (pid : UInt32) (startTime : UInt64) : Text :=
  decimal pid.toNat ++ [' ', '('] ++ entry.comm ++ ')' ::
    ((entry.fields startTime).flatMap (' ' :: ·) ++ ['\n'])

/-- The `stat` files while the processes of a state are running: a line for
each of them, and nothing under the other pids. Some of them may not be
readable. -/
def ReclaimState.procfs (s : ReclaimState) (entries : UInt32 → StatEntry)
    (unreadable : UInt32 → Bool) (pid : UInt32) : StatFile :=
  match (s.live pid).bind s.processes with
  | some identity =>
      if unreadable pid then .failed else .content ((entries pid).line pid identity.startTime)
  | none => if unreadable pid then .notFound true else .notFound false

/-! ## Reading a line -/

theorem isDigit_of_mem_decimal {n : ℕ} {c : Char} (h : c ∈ decimal n) : c.isDigit = true :=
  Nat.isDigit_of_mem_toDigits (by decide) (by decide) h

theorem isDigits_decimal (n : ℕ) : IsDigits (decimal n) :=
  ⟨Nat.toDigits_ne_nil, List.all_eq_true.2 fun _ hc => isDigit_of_mem_decimal hc⟩

theorem digitsValue_decimal (n : ℕ) : digitsValue (decimal n) = n := Nat.ofDigitChars_ten_toDigits

theorem parseU64_decimal (n : UInt64) : parseU64 (decimal n.toNat) = some n := by
  have hplus : (decimal n.toNat).head? ≠ some '+' := by
    intro h
    exact absurd (isDigit_of_mem_decimal (List.mem_of_head? h)) (by decide)
  have hvalue : IsDigits (withoutPlus (decimal n.toNat)) ∧
      digitsValue (withoutPlus (decimal n.toNat)) < 2 ^ 64 := by
    rw [withoutPlus_of_ne hplus, digitsValue_decimal]
    exact ⟨isDigits_decimal _, n.toNat_lt⟩
  rw [parseU64, if_pos hvalue, withoutPlus_of_ne hplus, digitsValue_decimal, UInt64.ofNat_toNat]

theorem isWhitespace_of_isDigit {c : Char} (h : c.isDigit = true) : isWhitespace c = false := by
  have hrange : 48 ≤ c.toNat ∧ c.toNat ≤ 57 := by
    simp only [Char.isDigit, Bool.and_eq_true, decide_eq_true_eq] at h
    exact h
  simp only [isWhitespace, Bool.or_eq_false_iff, Bool.and_eq_false_iff, decide_eq_false_iff_not,
    beq_eq_false_iff_ne, ne_eq]
  omega

theorem isField_decimal (n : ℕ) : IsField (decimal n) := by
  refine ⟨⟨Nat.toDigits_ne_nil, fun c hc => ?_⟩, fun h => ?_⟩
  · exact isWhitespace_of_isDigit (isDigit_of_mem_decimal hc)
  · exact absurd (isDigit_of_mem_decimal h) (by decide)

variable (entry : StatEntry) (pid : UInt32) (startTime : UInt64)

theorem StatEntry.isField_fields {field : Text} (h : field ∈ entry.fields startTime) :
    IsField field := by
  rcases List.mem_append.1 h with hb | ha
  · exact entry.isField field (List.mem_append_left _ hb)
  · rcases List.mem_cons.1 ha with rfl | ha
    · exact isField_decimal _
    · exact entry.isField field (List.mem_append_right _ ha)

/-- The last closing parenthesis of a line is the one behind the name. -/
theorem StatEntry.paren_not_mem :
    ')' ∉ (entry.fields startTime).flatMap (' ' :: ·) ++ ['\n'] := by
  intro h
  rcases List.mem_append.1 h with h | h
  · obtain ⟨field, hfield, hmem⟩ := List.mem_flatMap.1 h
    rcases List.mem_cons.1 hmem with hspace | hmem
    · exact absurd hspace (by decide)
    · exact (entry.isField_fields startTime hfield).2 hmem
  · exact absurd (List.mem_singleton.1 h) (by decide)

/-- **The start time of a line is read off it, whatever the name.** -/
theorem StatEntry.readStartTime_line :
    readStartTime (.content (entry.line pid startTime)) = .present startTime := by
  have hwords : words isWhitespace ((entry.fields startTime).flatMap (' ' :: ·) ++ ['\n'])
      = entry.fields startTime :=
    words_flatMap (by decide) (by decide) fun field hfield =>
      (entry.isField_fields startTime hfield).1
  have hget : (entry.fields startTime)[19]? = some (decimal startTime.toNat) := by
    rw [StatEntry.fields, List.getElem?_append_right (by rw [entry.length_before]),
      entry.length_before]
    rfl
  rw [readStartTime, StatEntry.line, splitLast_append (entry.paren_not_mem startTime)]
  dsimp only
  rw [hwords, hget]
  dsimp only
  rw [parseU64_decimal]

/-- A process that calls itself `) 1`, its fields all zero. -/
def zeroEntry : StatEntry where
  comm := [')', ' ', '1']
  before := List.replicate 19 (decimal 0)
  after := [decimal 0]
  length_before := rfl
  isField := by
    intro field h
    have hfield : field ∈ List.replicate 20 (decimal 0) := h
    exact List.eq_of_mem_replicate hfield ▸ isField_decimal 0

example : readStartTime (.content (zeroEntry.line 7 42)) = .present 42 := by decide +kernel

/-! ## The probe -/

variable (s : ReclaimState) (entries : UInt32 → StatEntry) (unreadable : UInt32 → Bool)

/-- **The probe by the `stat` files is the truth, or a failure where a file
is not readable.** -/
theorem probe_of_procfs :
    processStartTime (s.procfs entries unreadable) pid = s.probe (unreadable pid) pid := by
  rw [processStartTime, ReclaimState.procfs, ReclaimState.probe]
  cases (s.live pid).bind s.processes with
  | none => cases unreadable pid <;> rfl
  | some identity =>
      cases unreadable pid with
      | true => rfl
      | false => exact (entries pid).readStartTime_line pid identity.startTime

/-- The process that runs under the pid of an identity started when the
identity says. -/
def ReclaimState.Running (s : ReclaimState) (identity : ProcessIdentity) : Prop :=
  ∃ i process, s.live identity.pid = some i ∧ s.processes i = some process ∧
    process.startTime = identity.startTime

/-- **The classification of an identity, whatever the processes call
themselves**: alive exactly if a process with that identity is running, gone
exactly if none is, and undecided where the file is not readable and for the
pid zero. -/
theorem processLiveness_procfs (identity : ProcessIdentity) :
    let liveness := processLiveness (processStartTime (s.procfs entries unreadable)) identity
    let decided := identity.pid ≠ 0 ∧ unreadable identity.pid = false
    (liveness = .alive ↔ decided ∧ s.Running identity) ∧
      (liveness = .gone ↔ decided ∧ ¬ s.Running identity) ∧
      (liveness = .unknown ↔ ¬ decided) := by
  dsimp only
  rw [processLiveness]
  split
  · rename_i hpid
    simp [hpid]
  · rename_i hpid
    rw [probe_of_procfs, ReclaimState.probe]
    cases hun : unreadable identity.pid with
    | true => simp
    | false =>
        cases hproc : (s.live identity.pid).bind s.processes with
        | none =>
            have hrun : ¬ s.Running identity := by
              rintro ⟨i, process, hlive, hi, -⟩
              rw [hlive, Option.bind_some, hi] at hproc
              cases hproc
            simp [hpid, hrun]
        | some process =>
            obtain ⟨i, hlive, hi⟩ := Option.bind_eq_some_iff.1 hproc
            have hrun : s.Running identity ↔ process.startTime = identity.startTime := by
              refine ⟨?_, fun h => ⟨i, process, hlive, hi, h⟩⟩
              rintro ⟨j, other, hlive', hj, hstart⟩
              obtain rfl := Option.some.inj (hlive.symm.trans hlive')
              obtain rfl := Option.some.inj (hi.symm.trans hj)
              exact hstart
            by_cases hstart : process.startTime = identity.startTime
            · simp [hpid, hrun, hstart]
            · simp [hpid, hrun, hstart]

end Dsline
