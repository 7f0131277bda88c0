import A3sBench.ArchivePipelineRuns

/-!
# The bytes of a pipeline

The bytes of every schedule of a pipeline are counted, so that a budget can be
compared with what was really read. What the pump and the monitor pass on tells
that count.
-/

namespace A3sBench.ArchivePipeline

open Library Library.System

/-- The bytes that a turn of the pump reads. -/
def turnBytes (expired : Bool) (readFault : Option String) : List Nat → Nat
  | [] => 0
  | count :: _ => if expired || readFault.isSome then 0 else count

/-- The bytes that a move of one of the parties reads from the archive. -/
def bytesOf (s : State) : Event → Nat
  | .pump readFault _ =>
    match s.pump with
    | .running _ reads => turnBytes s.expired readFault reads
    | _ => 0
  | _ => 0

/-- The bytes read in the course of a run. -/
def bytesRead (h : List (State × Event)) : Nat := (h.map (fun p => bytesOf p.1 p.2)).sum

@[simp] theorem bytesRead_nil : bytesRead [] = 0 := rfl

@[simp] theorem bytesRead_cons (s : State) (e : Event) (h : List (State × Event)) :
    bytesRead ((s, e) :: h) = bytesOf s e + bytesRead h := by
  simp [bytesRead]

/-- A result of the pump, given the bytes it has read. -/
def ResultCounted (c : Config) (bytes : Nat) : Except ArchivePumpError Nat → Prop
  | .ok n => n = bytes ∧ n ≤ c.maxBytes
  | .error error => ∀ l consumed, error = .limit l consumed → consumed = min u64Max bytes

def PumpCounted (c : Config) (bytes : Nat) : Pump → Prop
  | .running transferred reads =>
    transferred = bytes ∧ transferred ≤ c.maxBytes ∧ ∀ n ∈ reads, n ≤ bufferLength
  | .stopped result | .sent result => ResultCounted c bytes result
  | .received => True

/-- What the monitor holds of a result of the pump. -/
def MonitorCounted (c : Config) (bytes : Nat) (pump : Pump) : Monitor → Prop
  | .closing (some (.pump error)) => pump = .received ∧ ResultCounted c bytes (.error error)
  | .returned (.ok n) => pump = .received ∧ ResultCounted c bytes (.ok n)
  | .returned (.error (.pump error)) => pump = .received ∧ ResultCounted c bytes (.error error)
  | _ => True

/-- The bytes of a run and everything that tells them. -/
structure Counted (c : Config) (bytes : Nat) (s : State) : Prop where
  within : bytes ≤ c.maxBytes + bufferLength
  pump : PumpCounted c bytes s.pump
  result : ∀ n, s.pumpResult = some n → s.pump = .received ∧ ResultCounted c bytes (.ok n)
  monitor : MonitorCounted c bytes s.pump s.monitor

/-- A turn of the pump counts what it reads. -/
theorem counted_pumpArchive {c : Config} {transferred : Nat} {reads : List Nat}
    (expired : Bool) (readFault writeFault : Option String) (h : transferred ≤ c.maxBytes)
    (hreads : ∀ n ∈ reads, n ≤ bufferLength) :
    transferred + turnBytes expired readFault reads ≤ c.maxBytes + bufferLength ∧
      PumpCounted c (transferred + turnBytes expired readFault reads)
        (pumpArchive c.maxBytes expired readFault writeFault transferred reads) := by
  have hstay : transferred ≤ c.maxBytes + bufferLength := h.trans (Nat.le_add_right _ _)
  have herror : ∀ {error : ArchivePumpError} (bytes : Nat), (∀ l n, error ≠ .limit l n) →
      ResultCounted c bytes (.error error) :=
    fun _ hne l n heq => absurd heq (hne l n)
  cases expired with
  | true =>
    have hbytes : turnBytes true readFault reads = 0 := by cases reads <;> rfl
    rw [hbytes]
    exact ⟨hstay, herror _ (by simp)⟩
  | false =>
    cases readFault with
    | some error =>
      have hbytes : turnBytes false (some error) reads = 0 := by cases reads <;> rfl
      rw [hbytes]
      exact ⟨hstay, herror _ (by simp)⟩
    | none =>
      cases reads with
      | nil =>
        cases writeFault with
        | some error => exact ⟨hstay, herror _ (by simp)⟩
        | none => exact ⟨hstay, rfl, h⟩
      | cons count rest =>
        obtain ⟨hcount, hrest⟩ := List.forall_mem_cons.mp hreads
        have hnext : transferred + count ≤ c.maxBytes + bufferLength := by omega
        refine ⟨hnext, ?_⟩
        simp only [pumpArchive, turnBytes, Bool.false_eq_true, if_false, Option.isSome_none,
          Bool.or_self]
        split_ifs with hcarry hlimit
        · rintro l consumed ⟨⟩
          exact (Nat.min_eq_left hcarry.le).symm
        · rintro l consumed ⟨⟩
          exact (Nat.min_eq_right (Nat.le_of_not_lt hcarry)).symm
        · cases writeFault with
          | some error => exact herror _ (by simp)
          | none => exact ⟨rfl, Nat.le_of_not_lt hlimit, hrest⟩

theorem counted_start {c : Config} {reads : List Nat} (h : ∀ n ∈ reads, n ≤ bufferLength) :
    Counted c 0 (start reads) where
  within := Nat.zero_le _
  pump := ⟨rfl, Nat.zero_le _, h⟩
  result n hn := by cases hn
  monitor := trivial

/-- A monitor that has taken no result yet holds none. -/
theorem monitorCounted_of_pump {c : Config} {bytes bytes' : Nat} {pump pump' : Pump}
    {monitor : Monitor} (h : MonitorCounted c bytes pump monitor) (hpump : pump ≠ .received) :
    MonitorCounted c bytes' pump' monitor := by
  unfold MonitorCounted at h ⊢
  split at h
  · exact absurd h.1 hpump
  · exact absurd h.1 hpump
  · exact absurd h.1 hpump
  · trivial

/-- The moves of the pump and of the children. -/
theorem counted_of_pump {c : Config} {bytes bytes' : Nat} {s s' : State} (h : Counted c bytes s)
    (hpump : s.pump ≠ .received) (hresult : s'.pumpResult = s.pumpResult)
    (hmonitor : s'.monitor = s.monitor) (hwithin : bytes' ≤ c.maxBytes + bufferLength)
    (hcounted : PumpCounted c bytes' s'.pump) : Counted c bytes' s' where
  within := hwithin
  pump := hcounted
  result n hn := absurd (h.result n (hresult ▸ hn)).1 hpump
  monitor := hmonitor ▸ monitorCounted_of_pump h.monitor hpump

/-- A turn of the monitor that takes no result. -/
theorem Counted.move {c : Config} {bytes : Nat} {s s' : State} (h : Counted c bytes s)
    (hpump : s'.pump = s.pump) (hresult : s'.pumpResult = s.pumpResult)
    (hmonitor : MonitorCounted c bytes s.pump s'.monitor) : Counted c bytes s' where
  within := h.within
  pump := hpump ▸ h.pump
  result n hn := hpump ▸ h.result n (hresult ▸ hn)
  monitor := hpump ▸ hmonitor

theorem monitorCounted_ite {c : Config} {bytes : Nat} {pump : Pump} {p : Prop} [Decidable p]
    {m m' : Monitor} (h : MonitorCounted c bytes pump m) (h' : MonitorCounted c bytes pump m') :
    MonitorCounted c bytes pump (if p then m else m') := by
  split
  · exact h
  · exact h'

/-- What the pipeline answers counts what was read. -/
theorem monitorCounted_finish {c : Config} {bytes : Nat} {s : State} (h : Counted c bytes s)
    {abort : Option PipelineAbort} (hm : s.monitor = .closing abort) :
    MonitorCounted c bytes s.pump (.returned (finish c s abort)) := by
  have hmonitor := h.monitor
  rw [hm] at hmonitor
  cases abort with
  | none =>
    simp only [finish]
    split_ifs
    · trivial
    · trivial
    · cases hresult : s.pumpResult with
      | some n => exact h.result n hresult
      | none => trivial
  | some abort =>
    cases abort with
    | timeout | copyFailed | extractFailed | monitor error => trivial
    | pump error => exact hmonitor

theorem counted_monitor {c : Config} {bytes : Nat} {fault : Option String} {s s' : State}
    (h : Counted c bytes s) (hstep : monitorStep c fault s = some s') : Counted c bytes s' := by
  unfold monitorStep at hstep
  cases hm : s.monitor with
  | deadline =>
    simp only [hm, Option.some.injEq] at hstep
    subst hstep
    exact h.move rfl rfl (monitorCounted_ite trivial trivial)
  | copy =>
    simp only [hm] at hstep
    split at hstep <;> cases hstep
    · exact h.move rfl rfl trivial
    · exact h.move rfl rfl (monitorCounted_ite trivial trivial)
  | extract =>
    simp only [hm] at hstep
    split at hstep <;> cases hstep
    · exact h.move rfl rfl trivial
    · exact h.move rfl rfl (monitorCounted_ite trivial trivial)
  | channel =>
    have hpump := h.pump
    simp only [hm] at hstep
    split at hstep <;> cases hstep
    · exact h.move rfl rfl trivial
    · rename_i n _ hsent
      rw [hsent] at hpump
      refine ⟨h.within, trivial, fun n' hn => ⟨rfl, ?_⟩, trivial⟩
      cases hn
      exact hpump
    · rename_i error hnone hsent
      rw [hsent] at hpump
      exact ⟨h.within, trivial, fun n' hn => absurd (hnone.symm.trans hn) (by simp), rfl, hpump⟩
    · exact h.move rfl rfl trivial
    · exact h.move rfl rfl trivial
  | complete =>
    simp only [hm, Option.some.injEq] at hstep
    subst hstep
    exact h.move rfl rfl (monitorCounted_ite trivial trivial)
  | closing abort =>
    have hnext : s' = { s with monitor := .returned (finish c s abort) } := by
      simp only [hm] at hstep
      split at hstep
      · exact (Option.some.inj hstep).symm
      · exact (Option.some.inj hstep).symm
      · cases hstep
    subst hnext
    exact h.move rfl rfl (monitorCounted_finish h hm)
  | returned result =>
    simp only [hm] at hstep
    cases hstep

theorem counted_apply {c : Config} {bytes : Nat} {s s' : State} {e : Event}
    (h : Counted c bytes s) (hstep : apply c s e = some s') :
    Counted c (bytesOf s e + bytes) s' := by
  cases e with
  | expire =>
    cases hstep
    change Counted c (0 + bytes) _
    rw [Nat.zero_add]
    exact h.move rfl rfl h.monitor
  | pump readFault writeFault =>
    have hpump := h.pump
    cases hp : s.pump with
    | running transferred reads =>
      rw [hp] at hpump
      obtain ⟨rfl, hle, hreads⟩ := hpump
      simp only [apply, hp, Option.some.injEq] at hstep
      subst hstep
      obtain ⟨hwithin, hcounted⟩ := counted_pumpArchive s.expired readFault writeFault hle hreads
      rw [bytesOf, hp, Nat.add_comm]
      exact counted_of_pump h (by simp [hp]) rfl rfl hwithin hcounted
    | stopped result | sent result | received => simp [apply, hp] at hstep
  | send =>
    have hpump := h.pump
    change Counted c (0 + bytes) _
    rw [Nat.zero_add]
    cases hp : s.pump with
    | stopped result =>
      rw [hp] at hpump
      simp only [apply, hp, Option.some.injEq] at hstep
      subst hstep
      exact counted_of_pump h (by simp [hp]) rfl rfl h.within hpump
    | running transferred reads | sent result | received => simp [apply, hp] at hstep
  | copyExit success =>
    simp only [apply] at hstep
    split_ifs at hstep
    cases hstep
    change Counted c (0 + bytes) _
    rw [Nat.zero_add]
    exact h.move rfl rfl h.monitor
  | extractExit success =>
    simp only [apply] at hstep
    split_ifs at hstep
    cases hstep
    change Counted c (0 + bytes) _
    rw [Nat.zero_add]
    exact h.move rfl rfl h.monitor
  | monitor fault =>
    change Counted c (0 + bytes) _
    rw [Nat.zero_add]
    exact counted_monitor h hstep

/-- On every schedule the bytes read are those that the pipeline answers for. -/
theorem counted_of_run {c : Config} {reads : List Nat} (hreads : ∀ n ∈ reads, n ≤ bufferLength)
    {h : List (State × Event)} {s : State} (hrun : Run (pipelineSystem c reads) h s) :
    Counted c (bytesRead h) s := by
  induction hrun with
  | start hinit =>
    obtain rfl := hinit
    exact counted_start hreads
  | next _ hstep ih =>
    rw [bytesRead_cons]
    exact counted_apply ih hstep

end A3sBench.ArchivePipeline
