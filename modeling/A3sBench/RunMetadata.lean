import A3sBench.Asset
import A3sBench.Json

/-!
# The metadata of a run on its resources

Every Docker resource of a Codex run carries the process that made it in its
labels: the boot, the process number and the start time, which together name one
process. `/proc` says whether that process is running.
-/

namespace A3sBench.StaleSweep

/-! ## Labels -/

/-- The labels of a resource, as Docker writes them. -/
abbrev Labels := List (String × Json)

def containerOwnerLabel : String := "a3s.bench.codex.owner"

def containerRunLabel : String := "a3s.bench.codex.run"

def containerBootIdLabel : String := "a3s.bench.codex.boot_id"

def containerPidLabel : String := "a3s.bench.codex.pid"

def containerPidStartLabel : String := "a3s.bench.codex.pid_start_ticks"

def containerCreatedAtLabel : String := "a3s.bench.codex.created_at"

structure RunMetadata where
  runId : String
  bootId : String
  pid : Nat
  pidStartTicks : Nat
  createdAt : Nat
  deriving DecidableEq

/-- What names one process: no two have all three in common. -/
structure Identity where
  bootId : String
  pid : Nat
  startTicks : Nat
  deriving DecidableEq

def RunMetadata.identity (metadata : RunMetadata) : Identity :=
  { bootId := metadata.bootId, pid := metadata.pid, startTicks := metadata.pidStartTicks }

/-- `str::parse::<u32>` -/
def parseU32 (text : String) : Result Nat := do
  let value ← Asset.parseUsize text
  ensure (value < 2 ^ 32) "number too large to fit in target type"
  pure value

/-- The closure of `from_labels`. -/
def label (resource : String) (labels : Labels) (key : String) : Result String :=
  okOr (((labels.lookup key).bind Json.asStr).filter (· ≠ ""))
    ("refusing to sweep Codex resource " ++ resource ++ ": missing metadata label " ++ key)

def RunMetadata.fromLabels (resource : String) (labels : Labels) : Result RunMetadata := do
  let runId ← label resource labels containerRunLabel
  let bootId ← label resource labels containerBootIdLabel
  let pid ← label resource labels containerPidLabel
  let pid ← context ("Codex resource " ++ resource ++ " has an invalid pid metadata label")
    (parseU32 pid)
  let start ← label resource labels containerPidStartLabel
  let start ← context ("Codex resource " ++ resource ++ " has an invalid pid start metadata label")
    (Asset.parseUsize start)
  let createdAt ← label resource labels containerCreatedAtLabel
  let createdAt ← context
    ("Codex resource " ++ resource ++ " has an invalid created-at metadata label")
    (Asset.parseUsize createdAt)
  pure { runId := runId, bootId := bootId, pid := pid, pidStartTicks := start,
         createdAt := createdAt }

/-- `add_labels` for the resource of this name. -/
def RunMetadata.addLabels (metadata : RunMetadata) (owner : String) : Labels :=
  [(containerOwnerLabel, .string owner), (containerRunLabel, .string metadata.runId),
    (containerBootIdLabel, .string metadata.bootId),
    (containerPidLabel, .string (toString metadata.pid)),
    (containerPidStartLabel, .string (toString metadata.pidStartTicks)),
    (containerCreatedAtLabel, .string (toString metadata.createdAt))]

/-- What `current` checks, and the ranges of the numbers. -/
structure RunMetadata.Valid (metadata : RunMetadata) : Prop where
  runId : metadata.runId ≠ ""
  bootId : metadata.bootId ≠ ""
  pid : metadata.pid < 2 ^ 32
  pidStartTicks : metadata.pidStartTicks < 2 ^ 64
  createdAt : metadata.createdAt < 2 ^ 64

theorem parseUsize_digits {n : Nat} (h : n < 2 ^ 64) :
    Asset.parseUsize (String.ofList (Nat.toDigits 10 n)) = .ok n := by
  have hdigits : ∀ c ∈ Nat.toDigits 10 n, c.isDigit = true :=
    fun c hc => Nat.isDigit_of_mem_toDigits (by decide) (by decide) hc
  have hne : Nat.toDigits 10 n ≠ [] := List.ne_nil_of_length_pos Nat.length_toDigits_pos
  have hall : (Nat.toDigits 10 n).all Char.isDigit = true := List.all_eq_true.mpr hdigits
  have hnonempty : String.ofList (Nat.toDigits 10 n) ≠ "" := by
    rw [ne_eq, ← String.toList_inj, String.toList_ofList]
    exact hne
  have hvalue : (Nat.toDigits 10 n).foldl (fun m c => 10 * m + (c.toNat - 48)) 0 = n :=
    Nat.ofDigitChars_ten_toDigits
  rw [Asset.parseUsize, String.toList_ofList]
  split
  · rename_i digits hplus
    exact absurd (hdigits '+' (hplus ▸ List.mem_cons_self)) (by decide)
  · simp only [Result.bind_ok_iff, Result.exists_unit_iff, Result.ensure_ok_iff, hvalue,
      Result.pure_ok_iff]
    exact ⟨hnonempty, ⟨hne, hall⟩, h, trivial⟩

theorem parseUsize_toString {n : Nat} (h : n < 2 ^ 64) : Asset.parseUsize (toString n) = .ok n := by
  rw [Nat.toString_eq_ofList_toDigits]
  exact parseUsize_digits h

theorem toString_ne_empty (n : Nat) : toString n ≠ "" := by
  rw [Nat.toString_eq_ofList_toDigits, ne_eq, ← String.toList_inj, String.toList_ofList]
  exact List.ne_nil_of_length_pos Nat.length_toDigits_pos

theorem label_of_lookup {resource : String} {labels : Labels} {key value : String}
    (hlookup : labels.lookup key = some (.string value)) (hne : value ≠ "") :
    label resource labels key = .ok value := by
  rw [label, hlookup, Result.okOr_ok_iff]
  exact Option.filter_eq_some_iff.mpr ⟨rfl, decide_eq_true hne⟩

theorem fromLabels_addLabels {metadata : RunMetadata} (h : metadata.Valid) (owner : String) :
    RunMetadata.fromLabels owner (metadata.addLabels owner) = .ok metadata := by
  have hpid : metadata.pid < 2 ^ 64 := h.pid.trans (by decide)
  simp only [RunMetadata.fromLabels, Result.bind_ok_iff, Result.context_ok_iff, Result.pure_ok_iff]
  refine ⟨_, label_of_lookup rfl h.runId, _, label_of_lookup rfl h.bootId, _,
    label_of_lookup rfl (toString_ne_empty _), metadata.pid, ?_, _,
    label_of_lookup rfl (toString_ne_empty _), _, parseUsize_toString h.pidStartTicks, _,
    label_of_lookup rfl (toString_ne_empty _), _, parseUsize_toString h.createdAt, rfl⟩
  simp only [parseU32, Result.bind_ok_iff, Result.exists_unit_iff, Result.ensure_ok_iff,
    Result.pure_ok_iff]
  exact ⟨metadata.pid, parseUsize_toString hpid, h.pid, rfl⟩

/-! ## Running processes -/

/-- `/proc/<pid>/stat` of a process: its command, which may hold anything, and the fields after
it. -/
structure ProcStat where
  command : List Char
  fields : List (List Char)
  startTicks : Nat
  plain : ∀ field ∈ fields, field ≠ [] ∧ ∀ c ∈ field, Text.isWhitespace c = false ∧ c ≠ ')'
  start : fields[19]? = some (Nat.toDigits 10 startTicks)
  bound : startTicks < 2 ^ 64

def ProcStat.text (pid : Nat) (stat : ProcStat) : List Char :=
  Nat.toDigits 10 pid ++ ' ' :: '(' :: stat.command ++
    ')' :: (stat.fields.flatMap (fun field => ' ' :: field) ++ ['\n'])

/-- `str::split_whitespace` -/
def splitWhitespace (text : List Char) : List (List Char) :=
  (text.splitOnP Text.isWhitespace).filter (· ≠ [])

def parseProcStatStartTicks (stat : List Char) : Result Nat := do
  ensure (')' ∈ stat) "process stat omitted the command terminator"
  let start ← okOr (splitWhitespace (stat.rtakeWhile (· ≠ ')')))[19]?
    "process stat omitted the start time"
  context "process stat start time was invalid" (Asset.parseUsize (String.ofList start))

/-- `read_pid_start_ticks`, with the processes there are. -/
def readPidStartTicks (running : Nat → Option ProcStat) (pid : Nat) : Result (Option Nat) :=
  match running pid with
  | none => .ok none
  | some stat => do
    let ticks ← parseProcStatStartTicks (stat.text pid)
    pure (some ticks)

def runMetadataIsActive (metadata : RunMetadata) (currentBootId : String)
    (pidStart : Nat → Result (Option Nat)) : Result Bool :=
  if metadata.bootId ≠ currentBootId then .ok false
  else do
    let start ← pidStart metadata.pid
    pure (start = some metadata.pidStartTicks)

theorem splitWhitespace_cons {c : Char} (hc : Text.isWhitespace c = true) (text : List Char) :
    splitWhitespace (c :: text) = splitWhitespace text := by
  have := List.splitOnP_append_cons [] text hc
  rw [List.nil_append] at this
  rw [splitWhitespace, this]
  rfl

theorem splitWhitespace_field {field text : List Char} {c : Char} (hne : field ≠ [])
    (hfield : ∀ d ∈ field, Text.isWhitespace d = false) (hc : Text.isWhitespace c = true) :
    splitWhitespace (field ++ c :: text) = field :: splitWhitespace text := by
  rw [splitWhitespace, List.splitOnP_append_cons_of_forall_mem hfield c hc,
    List.filter_cons_of_pos (by simpa using hne)]
  rfl

theorem splitWhitespace_fields {fields : List (List Char)}
    (h : ∀ field ∈ fields, field ≠ [] ∧ ∀ c ∈ field, Text.isWhitespace c = false ∧ c ≠ ')') :
    splitWhitespace (fields.flatMap (fun field => ' ' :: field) ++ ['\n']) = fields := by
  induction fields with
  | nil => decide
  | cons field fields ih =>
    have hfields := ih fun f hf => h f (List.mem_cons_of_mem field hf)
    obtain ⟨hne, hplain⟩ := h field List.mem_cons_self
    -- what follows a field begins with a blank
    obtain ⟨c, text, hc, htext⟩ : ∃ c text, Text.isWhitespace c = true ∧
        fields.flatMap (fun field => ' ' :: field) ++ ['\n'] = c :: text := by
      cases fields with
      | nil => exact ⟨'\n', [], by decide, rfl⟩
      | cons f fields => exact ⟨' ', _, by decide, rfl⟩
    rw [htext, splitWhitespace_cons hc] at hfields
    rw [List.flatMap_cons, List.append_assoc, htext, List.cons_append,
      splitWhitespace_cons (by decide), splitWhitespace_field hne (fun d hd => (hplain d hd).1) hc,
      hfields]

theorem rtakeWhile_append_cons {front back : List Char} (h : ')' ∉ back) :
    (front ++ ')' :: back).rtakeWhile (· ≠ ')') = back := by
  have hback : ∀ c ∈ back.reverse, decide (c ≠ ')') = true := by
    intro c hc
    exact decide_eq_true fun heq => h (heq ▸ List.mem_reverse.mp hc)
  rw [List.rtakeWhile, List.reverse_append, List.reverse_cons, List.append_assoc,
    List.takeWhile_append_of_pos hback]
  simp

/-- The start time is read back, whatever the command is. -/
theorem parseProcStatStartTicks_text (pid : Nat) (stat : ProcStat) :
    parseProcStatStartTicks (stat.text pid) = .ok stat.startTicks := by
  have hback : ')' ∉ stat.fields.flatMap (fun field => ' ' :: field) ++ ['\n'] := by
    intro hmem
    obtain hmem | hmem := List.mem_append.mp hmem
    · obtain ⟨field, hfield, hc⟩ := List.mem_flatMap.mp hmem
      obtain hblank | hc := List.mem_cons.mp hc
      · exact absurd hblank (by decide)
      · exact ((stat.plain field hfield).2 _ hc).2 rfl
    · exact absurd (List.mem_singleton.mp hmem) (by decide)
  have hend : ')' ∈ stat.text pid := List.mem_append_right _ List.mem_cons_self
  have hstart : (splitWhitespace ((stat.text pid).rtakeWhile (· ≠ ')')))[19]? =
      some (Nat.toDigits 10 stat.startTicks) := by
    rw [ProcStat.text, rtakeWhile_append_cons hback, splitWhitespace_fields stat.plain, stat.start]
  simp only [parseProcStatStartTicks, Result.bind_ok_iff, Result.exists_unit_iff,
    Result.ensure_ok_iff, Result.okOr_ok_iff, Result.context_ok_iff]
  exact ⟨hend, _, hstart, parseUsize_digits stat.bound⟩

theorem readPidStartTicks_eq (running : Nat → Option ProcStat) (pid : Nat) :
    readPidStartTicks running pid = .ok ((running pid).map ProcStat.startTicks) := by
  rw [readPidStartTicks]
  split
  · rename_i hnone
    rw [hnone]
    rfl
  · rename_i stat hsome
    rw [parseProcStatStartTicks_text, hsome]
    rfl

end A3sBench.StaleSweep
