import Mathlib

/-!
# The archive pipeline

`run_archive_pipeline` lets a thread pump an archive from `docker cp` to `tar`,
and polls the two children and the thread from a loop. The state below is what
these four parties share; an event is one move of one of them.
-/

namespace A3sBench.ArchivePipeline

def u64Max : Nat := 2 ^ 64 - 1

/-- The length of the buffer of `pump_archive`. -/
def bufferLength : Nat := 64 * 1024

inductive ArchivePumpError where
  | deadline
  | limit (limit consumed : Nat)
  | io (error : String)
  deriving DecidableEq

/-- An error of the pipeline: the pump's own, which the caller can downcast to,
or a message. -/
inductive Failure where
  | pump (error : ArchivePumpError)
  | message (text : String)
  deriving DecidableEq

/-- What stays fixed during one pipeline. The suffixes quote the stderr of the
children. -/
structure Config where
  maxBytes : Nat
  timeout : String
  copySuffix : String
  extractSuffix : String

/-- The pump thread: in its loop, returned with both pipe ends dropped, sent to
the channel, taken from the channel. -/
inductive Pump where
  | running (transferred : Nat) (reads : List Nat)
  | stopped (result : Except ArchivePumpError Nat)
  | sent (result : Except ArchivePumpError Nat)
  | received

inductive Child where
  | running
  | exited (success : Bool)
  deriving DecidableEq

inductive PipelineAbort where
  | timeout
  | copyFailed
  | extractFailed
  | pump (error : ArchivePumpError)
  | monitor (error : String)

/-- Where the monitor loop stands, and what is left after it. -/
inductive Monitor where
  | deadline
  | copy
  | extract
  | channel
  | complete
  | closing (abort : Option PipelineAbort)
  | returned (result : Except Failure Nat)

structure State where
  expired : Bool
  pump : Pump
  copy : Child
  extract : Child
  copyStatus : Option Bool
  extractStatus : Option Bool
  pumpResult : Option Nat
  monitor : Monitor

/-- Everything spawned, the archive still to be read. -/
def start (reads : List Nat) : State where
  expired := false
  pump := .running 0 reads
  copy := .running
  extract := .running
  copyStatus := none
  extractStatus := none
  pumpResult := none
  monitor := .deadline

/-- One turn of the loop of `pump_archive`, with the faults its read and its
write may meet. -/
def pumpArchive (maxBytes : Nat) (expired : Bool) (readFault writeFault : Option String)
    (transferred : Nat) (reads : List Nat) : Pump :=
  if expired then .stopped (.error .deadline)
  else
    match readFault with
    | some error => .stopped (.error (.io error))
    | none =>
      match reads with
      | [] =>
        match writeFault with
        | some error => .stopped (.error (.io error))
        | none => .stopped (.ok transferred)
      | count :: rest =>
        let next := transferred + count
        if u64Max < next then .stopped (.error (.limit maxBytes u64Max))
        else if maxBytes < next then .stopped (.error (.limit maxBytes next))
        else
          match writeFault with
          | some error => .stopped (.error (.io error))
          | none => .running next rest

/-- `try_wait`: whether the child has exited, and with success. -/
def Child.tryWait : Child → Option Bool
  | .running => none
  | .exited success => some success

/-- `poll_child`: a known status is not asked for again. -/
def pollChild (fault : Option String) (child : Child) (status : Option Bool) :
    Except String (Option Bool) :=
  match status, fault with
  | some success, _ => .ok (some success)
  | none, some error => .error error
  | none, none => .ok child.tryWait

/-- What the pipeline answers once both children and the thread have ended. -/
def finish (c : Config) (s : State) : Option PipelineAbort → Except Failure Nat
  | some .timeout => .error (.message
      ("workspace OCI export exceeded its " ++ c.timeout ++ " deadline" ++ c.copySuffix ++
        c.extractSuffix))
  | some .copyFailed => .error (.message
      ("workspace OCI source_path is unavailable" ++ c.copySuffix))
  | some .extractFailed => .error (.message
      ("could not extract workspace OCI seed" ++ c.extractSuffix))
  | some (.pump error) => .error (.pump error)
  | some (.monitor error) => .error (.message error)
  | none =>
    if s.copyStatus ≠ some true then
      .error (.message ("workspace OCI source_path is unavailable" ++ c.copySuffix))
    else if s.extractStatus ≠ some true then
      .error (.message ("could not extract workspace OCI seed" ++ c.extractSuffix))
    else
      match s.pumpResult with
      | some bytes => .ok bytes
      | none => .error (.message "pump result is populated before pipeline completion")

/-- The next step of the monitor. The final joins wait for the pump thread. -/
def monitorStep (c : Config) (fault : Option String) (s : State) : Option State :=
  match s.monitor with
  | .deadline =>
    some { s with monitor := if s.expired then .closing (some .timeout) else .copy }
  | .copy =>
    match pollChild fault s.copy s.copyStatus with
    | .error _ => some { s with monitor := .closing (some (.monitor "could not poll Docker copy")) }
    | .ok status => some
        { s with
          copyStatus := status
          monitor := if status = some false then .closing (some .copyFailed) else .extract }
  | .extract =>
    match pollChild fault s.extract s.extractStatus with
    | .error _ =>
      some { s with monitor := .closing (some (.monitor "could not poll workspace extraction")) }
    | .ok status => some
        { s with
          extractStatus := status
          monitor := if status = some false then .closing (some .extractFailed) else .channel }
  | .channel =>
    match s.pumpResult, s.pump with
    | some _, _ => some { s with monitor := .complete }
    | none, .sent (.ok bytes) =>
      some { s with pump := .received, pumpResult := some bytes, monitor := .complete }
    | none, .sent (.error error) =>
      some { s with pump := .received, monitor := .closing (some (.pump error)) }
    | none, .received => some
        { s with
          monitor := .closing (some (.monitor "workspace archive pump exited without a result")) }
    | none, _ => some { s with monitor := .complete }
  | .complete =>
    some
      { s with
        monitor :=
          if s.copyStatus.isSome ∧ s.extractStatus.isSome ∧ s.pumpResult.isSome then .closing none
          else .deadline }
  | .closing abort =>
    match s.pump with
    | .sent _ | .received => some { s with monitor := .returned (finish c s abort) }
    | _ => none
  | .returned _ => none

inductive Event where
  | expire
  | pump (readFault writeFault : Option String)
  | send
  | copyExit (success : Bool)
  | extractExit (success : Bool)
  | monitor (fault : Option String)
  deriving DecidableEq

/-- The state after an event, if the event can happen. -/
def apply (c : Config) (s : State) : Event → Option State
  | .expire => some { s with expired := true }
  | .pump readFault writeFault =>
    match s.pump with
    | .running transferred reads => some
        { s with
          pump := pumpArchive c.maxBytes s.expired readFault writeFault transferred reads }
    | _ => none
  | .send =>
    match s.pump with
    | .stopped result => some { s with pump := .sent result }
    | _ => none
  | .copyExit success =>
    if s.copy = .running then some { s with copy := .exited success } else none
  | .extractExit success =>
    if s.extract = .running then some { s with extract := .exited success } else none
  | .monitor fault => monitorStep c fault s

/-- What the export loop makes of one extraction: the bytes it may still
transfer, and whether there is a file to select. -/
def afterExtraction (remaining copyCap policyCap : Nat) :
    Except Failure Nat → Except Failure (Nat × Bool)
  | .ok transferred =>
    if transferred ≤ remaining then .ok (remaining - transferred, true)
    else .error (.message "workspace archive transfer accounting underflowed")
  | .error error =>
    if copyCap = policyCap then
      match error with
      | .pump (.limit _ consumed) =>
        if consumed ≤ remaining then .ok (remaining - consumed, false)
        else .error (.message "workspace archive exceeded its fixed cumulative transfer limit")
      | error => .error error
    else .error error

end A3sBench.ArchivePipeline
