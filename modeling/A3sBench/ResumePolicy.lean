import A3sBench.CodexEvents
import A3sBench.Library.Occurrence

/-!
# When Codex is resumed

`codex_stop_hook.sh` counts the Stop payloads in a row that claim convergence
and accepts the tenth; `codex_run_loop.sh` starts Codex again until then. The
two scripts share a directory that one run begins without either file.
-/

namespace A3sBench.ResumePolicy

open Library
open CodexEvents (maxResumes minRuntimeForResumeCentiseconds)

section StopHook

/-- `convergence-count` with its contents, and whether `accepted` is there. -/
structure ReviewDir where
  count : Option (List Char)
  accepted : Bool
  deriving DecidableEq

/-- `rm -f` on both files, before the first attempt. -/
def startRun (_ : ReviewDir) : ReviewDir := { count := none, accepted := false }

/-- `$(…)` drops zero bytes and the final line breaks. -/
def commandSubstitution (output : List Char) : List Char :=
  (output.filter (· ≠ '\x00')).rdropWhile (· == '\n')

/-- `tr '[:upper:]' '[:lower:]'` on the payload. -/
def normalized (payload : String) : List Char :=
  commandSubstitution ((commandSubstitution payload.toList).map Char.toLower)

/-- The quoted parts of the `case` patterns, with a `*` around each. -/
def convergencePatterns : List (List String) :=
  [["no further ", "change"], ["no further ", "edit"], ["no further ", "modification"],
    ["no further ", "improvement"], ["no further ", "optimization"],
    ["no additional ", "change"], ["no additional ", "edit"],
    ["nothing further to "], ["nothing else to "],
    ["cannot identify any further"], ["can't identify any further"],
    ["already good enough"], ["is good enough"], ["work is complete"],
    ["already complete"], ["already optimal"], ["current final candidate"],
    ["will not make further"], ["won't make further"], ["decline to make further"],
    ["无需进一步"], ["不需要进一步"], ["没有更多", "修改"],
    ["没有更多", "改动"], ["没有更多", "优化"], ["已经足够"],
    ["已足够"], ["已经完成"], ["不再修改"], ["拒绝继续"], ["拒绝再"]]

def converged (payload : String) : Bool :=
  convergencePatterns.any fun parts => inOrder (parts.map String.toList) (normalized payload)

/-- One of the patterns matches, with any text for each `*`. -/
theorem converged_iff (payload : String) :
    converged payload = true ↔
      ∃ parts ∈ convergencePatterns, InOrder (parts.map String.toList) (normalized payload) := by
  rw [converged, List.any_eq_true]
  simp only [inOrder_iff]

def limit : Nat := 10

/-- `read` with the `case` after it: a file without a line break, an empty line or one with
something else than digits is a count of zero. -/
def readCount (contents : Option (List Char)) : Nat :=
  match contents with
  | none => 0
  | some text =>
    let line := text.takeWhile (· ≠ '\n')
    if '\n' ∉ text ∨ line = [] ∨ line.any (fun c => !c.isDigit) then 0
    else Nat.ofDigitChars 10 line 0

/-- `printf '%s\n' "$count"` -/
def writeCount (count : Nat) : List Char := Nat.toDigits 10 count ++ ['\n']

/-- `codex_stop_hook.sh` on a payload, its file operations succeeding. -/
def stopHook (dir : ReviewDir) (payload : String) : ReviewDir :=
  if !converged payload then { dir with count := none }
  else
    let count := readCount dir.count + 1
    if limit ≤ count then { count := none, accepted := true }
    else { dir with count := some (writeCount count) }

/-- The matching payloads at the end of a sequence. -/
def trailing (payloads : List String) : Nat := (payloads.rtakeWhile converged).length

/-- The ten most recent payloads all match. -/
def TenConverged (payloads : List String) : Prop :=
  ∃ before recent, payloads = before ++ recent ∧ recent.length = limit ∧
    ∀ payload ∈ recent, converged payload = true

theorem trailing_concat (payloads : List String) (payload : String) :
    trailing (payloads ++ [payload]) = if converged payload then trailing payloads + 1 else 0 := by
  rw [trailing, List.rtakeWhile_concat]
  split
  · exact List.length_append
  · rfl

theorem trailing_of_all {before recent : List String}
    (h : ∀ payload ∈ recent, converged payload = true) : recent.length ≤ trailing (before ++ recent) := by
  induction recent using List.reverseRecOn with
  | nil => exact Nat.zero_le _
  | append_singleton recent payload ih =>
    have hlast := h payload (List.mem_append_right recent (List.mem_singleton_self payload))
    have := ih fun p hp => h p (List.mem_append_left [payload] hp)
    rw [← List.append_assoc, trailing_concat, if_pos hlast, List.length_append]
    exact Nat.succ_le_succ this

theorem tenConverged_iff (payloads : List String) : TenConverged payloads ↔ limit ≤ trailing payloads := by
  constructor
  · rintro ⟨before, recent, rfl, hlength, hall⟩
    exact hlength ▸ trailing_of_all hall
  · intro h
    have hsplit : payloads = payloads.rdropWhile converged ++
        (payloads.rtakeWhile converged).take (trailing payloads - limit) ++
        (payloads.rtakeWhile converged).drop (trailing payloads - limit) := by
      rw [List.append_assoc, List.take_append_drop, List.rdropWhile_append_rtakeWhile]
    refine ⟨_, _, hsplit, ?_, fun payload hpayload => ?_⟩
    · rw [List.length_drop, ← trailing]
      omega
    · exact List.mem_rtakeWhile_imp (List.mem_of_mem_drop hpayload)

/-- What the file holds after so many matching payloads. -/
def countFile (count : Nat) : Option (List Char) :=
  if count = 0 then none else some (writeCount count)

theorem readCount_countFile : ∀ count < limit, readCount (countFile count) = count := by decide

theorem stopHook_accepted {dir : ReviewDir} (payload : String) (h : dir.accepted = true) :
    (stopHook dir payload).accepted = true := by
  rw [stopHook]
  split
  · exact h
  · dsimp only
    split
    · rfl
    · exact h

theorem stopHook_reset {dir : ReviewDir} {payload : String} (h : converged payload = false) :
    stopHook dir payload = { dir with count := none } := by
  rw [stopHook, h]
  rfl

theorem stopHook_counted {dir : ReviewDir} {payload : String} {count : Nat}
    (h : converged payload = true) (hcount : dir.count = countFile count) (hlt : count < limit) :
    stopHook dir payload =
      if limit ≤ count + 1 then { count := none, accepted := true }
      else { dir with count := countFile (count + 1) } := by
  rw [stopHook, h, hcount, readCount_countFile count hlt]
  rfl

theorem exists_tenConverged_concat (payloads : List String) (payload : String) :
    (∃ earlier, earlier <+: payloads ++ [payload] ∧ TenConverged earlier) ↔
      TenConverged (payloads ++ [payload]) ∨ ∃ earlier, earlier <+: payloads ∧ TenConverged earlier := by
  constructor
  · rintro ⟨earlier, hearlier, hten⟩
    obtain rfl | hearlier := List.prefix_concat_iff.mp hearlier
    · exact .inl hten
    · exact .inr ⟨earlier, hearlier, hten⟩
  · rintro (hten | ⟨earlier, hearlier, hten⟩)
    · exact ⟨_, List.prefix_rfl, hten⟩
    · exact ⟨earlier, hearlier.trans (List.prefix_append ..), hten⟩

/-- What the directory holds after some payloads: acceptance is final, and until then the file
counts the trailing matching payloads. -/
structure Counts (payloads : List String) (dir : ReviewDir) : Prop where
  accepted : dir.accepted = true ↔ ∃ earlier, earlier <+: payloads ∧ TenConverged earlier
  count : dir.accepted = false → dir.count = countFile (trailing payloads)

theorem Counts.trailing_lt {payloads : List String} {dir : ReviewDir} (h : Counts payloads dir)
    (hopen : dir.accepted = false) : trailing payloads < limit := by
  by_contra hle
  have := h.accepted.mpr ⟨payloads, List.prefix_rfl, (tenConverged_iff payloads).mpr (not_lt.mp hle)⟩
  rw [hopen] at this
  cases this

theorem counts_start (dir : ReviewDir) : Counts [] (startRun dir) := by
  refine ⟨⟨fun h => absurd h Bool.false_ne_true, ?_⟩, fun _ => rfl⟩
  rintro ⟨earlier, hearlier, hten⟩
  obtain rfl := List.prefix_nil.mp hearlier
  exact absurd ((tenConverged_iff []).mp hten) (Nat.not_succ_le_zero 9)

theorem Counts.next {payloads : List String} {dir : ReviewDir} (h : Counts payloads dir)
    (payload : String) : Counts (payloads ++ [payload]) (stopHook dir payload) := by
  have hten := tenConverged_iff (payloads ++ [payload])
  rw [trailing_concat] at hten
  cases hconverged : converged payload with
  | false =>
    rw [if_neg (by rw [hconverged]; exact Bool.false_ne_true)] at hten
    rw [stopHook_reset hconverged]
    refine ⟨?_, fun _ => by rw [trailing_concat, hconverged]; rfl⟩
    rw [exists_tenConverged_concat, h.accepted]
    exact (or_iff_right fun hlast => absurd (hten.mp hlast) (by decide)).symm
  | true =>
    rw [if_pos hconverged] at hten
    cases hopen : dir.accepted with
    | true =>
      have haccepted := stopHook_accepted payload hopen
      refine ⟨?_, fun hfalse => absurd (hfalse.symm.trans haccepted) Bool.false_ne_true⟩
      rw [exists_tenConverged_concat, haccepted]
      exact ⟨fun _ => .inr (h.accepted.mp hopen), fun _ => rfl⟩
    | false =>
      have hnever : ¬ ∃ earlier, earlier <+: payloads ∧ TenConverged earlier := by
        rw [← h.accepted, hopen]
        exact Bool.false_ne_true
      rw [stopHook_counted hconverged (h.count hopen) (h.trailing_lt hopen)]
      split
      · rename_i hlimit
        refine ⟨?_, fun hfalse => absurd hfalse.symm Bool.false_ne_true⟩
        rw [exists_tenConverged_concat]
        exact ⟨fun _ => .inl (hten.mpr hlimit), fun _ => rfl⟩
      · rename_i hlimit
        refine ⟨?_, fun _ => by rw [trailing_concat, if_pos hconverged]⟩
        rw [exists_tenConverged_concat, or_iff_left hnever, hten]
        exact ⟨fun htrue => absurd (hopen.symm.trans htrue) Bool.false_ne_true, fun hle => absurd hle hlimit⟩

theorem counts_run (dir : ReviewDir) (payloads : List String) :
    Counts payloads (payloads.foldl stopHook (startRun dir)) := by
  induction payloads using List.reverseRecOn with
  | nil => exact counts_start dir
  | append_singleton payloads payload ih =>
    rw [List.foldl_append, List.foldl_cons, List.foldl_nil]
    exact ih.next payload

end StopHook

section RunLoop

/-- The uptime and the idle time of the machine in centiseconds. -/
structure Uptime where
  now : Nat
  idle : Nat

def seconds (centiseconds : Nat) : List Char :=
  Nat.toDigits 10 (centiseconds / 100) ++
    ['.', Nat.digitChar (centiseconds % 100 / 10), Nat.digitChar (centiseconds % 10)]

/-- `/proc/uptime`: seconds with two decimals. -/
def procUptime (uptime : Uptime) : List Char :=
  seconds uptime.now ++ ' ' :: seconds uptime.idle ++ ['\n']

/-- `monotonic_centiseconds`; the `1` in front keeps the digits decimal. -/
def monotonicCentiseconds (contents : List Char) : Nat :=
  let uptimeSeconds := contents.takeWhile (· ≠ ' ')
  let wholeSeconds := uptimeSeconds.takeWhile (· ≠ '.')
  let fractionalSeconds := (uptimeSeconds.dropWhile (· ≠ '.')).drop 1
  let fractionalSeconds := (fractionalSeconds ++ ['0', '0']).take 2
  Nat.ofDigitChars 10 wholeSeconds 0 * 100 + Nat.ofDigitChars 10 ('1' :: fractionalSeconds) 0 - 100

theorem digit_ne {centiseconds : Nat} {c : Char} (hc : c ∈ Nat.toDigits 10 centiseconds) :
    c ≠ ' ' ∧ c ≠ '.' := by
  have hdigit := Nat.isDigit_of_mem_toDigits (by decide) (by decide) hc
  constructor
  · rintro rfl
    exact absurd hdigit (by decide)
  · rintro rfl
    exact absurd hdigit (by decide)

theorem digitChar_ne_space {n : Nat} (h : n < 10) : Nat.digitChar n ≠ ' ' := by
  have hall : ∀ n < 10, Nat.digitChar n ≠ ' ' := by decide
  exact hall n h

theorem monotonicCentiseconds_procUptime (uptime : Uptime) :
    monotonicCentiseconds (procUptime uptime) = uptime.now := by
  have htens : uptime.now % 100 / 10 < 10 := by omega
  have hones : uptime.now % 10 < 10 := by omega
  have hword : (procUptime uptime).takeWhile (· ≠ ' ') = seconds uptime.now := by
    rw [procUptime, List.append_assoc, List.takeWhile_append_of_pos]
    · simp
    · intro c hc
      rw [seconds, List.mem_append] at hc
      obtain hc | hc := hc
      · exact decide_eq_true (digit_ne hc).1
      · simp only [List.mem_cons, List.not_mem_nil, or_false] at hc
        obtain rfl | rfl | rfl := hc
        · decide
        · exact decide_eq_true (digitChar_ne_space htens)
        · exact decide_eq_true (digitChar_ne_space hones)
  have hwhole : ∀ c ∈ Nat.toDigits 10 (uptime.now / 100), decide (c ≠ '.') = true :=
    fun c hc => decide_eq_true (digit_ne hc).2
  have hfraction : Nat.ofDigitChars 10 ['1', Nat.digitChar (uptime.now % 100 / 10),
      Nat.digitChar (uptime.now % 10)] 0 = 100 + uptime.now % 100 := by
    rw [Nat.ofDigitChars_cons, Nat.ofDigitChars_cons_digitChar_of_lt_ten htens,
      Nat.ofDigitChars_cons_digitChar_of_lt_ten hones, Nat.ofDigitChars_nil]
    change 10 * (10 * 1 + uptime.now % 100 / 10) + uptime.now % 10 = 100 + uptime.now % 100
    omega
  rw [monotonicCentiseconds, hword, seconds, List.takeWhile_append_of_pos hwhole,
    List.dropWhile_append_of_pos hwhole]
  change Nat.ofDigitChars 10 (Nat.toDigits 10 (uptime.now / 100) ++ []) 0 * 100 +
    Nat.ofDigitChars 10 ['1', Nat.digitChar (uptime.now % 100 / 10),
      Nat.digitChar (uptime.now % 10)] 0 - 100 = uptime.now
  rw [hfraction, List.append_nil, Nat.ofDigitChars_ten_toDigits]
  omega

/-- One start of Codex: its status, the clock around it, and what it makes of the shared
directory. -/
structure CodexRun where
  status : Nat
  before : Uptime
  after : Uptime
  review : ReviewDir → ReviewDir

def CodexRun.elapsed (run : CodexRun) : Nat :=
  monotonicCentiseconds (procUptime run.after) - monotonicCentiseconds (procUptime run.before)

/-- The variables of `codex_run_loop.sh`, the directory, and the runs made. -/
structure LoopState where
  resumeCount : Nat
  status : Nat
  elapsed : Nat
  dir : ReviewDir
  made : List CodexRun

/-- The condition of the loop. -/
def LoopState.goesOn (s : LoopState) (disableAutoResume : Bool) : Bool :=
  !s.dir.accepted && !disableAutoResume && minRuntimeForResumeCentiseconds ≤ s.elapsed &&
    s.resumeCount < maxResumes

/-- One turn of the loop. -/
def LoopState.resume (s : LoopState) (run : CodexRun) : LoopState :=
  { resumeCount := s.resumeCount + 1, status := run.status, elapsed := run.elapsed,
    dir := run.review s.dir, made := s.made ++ [run] }

/-- The loop, with the run that the machine makes as number `i` given. -/
def resumeLoop (disableAutoResume : Bool) (runs : Nat → CodexRun) (s : LoopState) : LoopState :=
  if _ : s.goesOn disableAutoResume then
    resumeLoop disableAutoResume runs (s.resume (runs (s.resumeCount + 1)))
  else s
termination_by maxResumes - s.resumeCount
decreasing_by
  rename_i hgoes
  have hlt : s.resumeCount < maxResumes := of_decide_eq_true (Bool.and_eq_true_iff.mp hgoes).2
  exact Nat.sub_lt_sub_left hlt (Nat.lt_succ_self _)

def firstAttempt (run : CodexRun) (dir : ReviewDir) : LoopState :=
  { resumeCount := 0, status := run.status, elapsed := run.elapsed, dir := run.review dir,
    made := [run] }

/-- `codex_run_loop.sh` -/
def codexRunLoop (disableAutoResume : Bool) (runs : Nat → CodexRun) (dir : ReviewDir) : LoopState :=
  resumeLoop disableAutoResume runs (firstAttempt (runs 0) (startRun dir))

/-- The directory after the attempts up to number `i`. -/
def dirAfter (runs : Nat → CodexRun) (dir : ReviewDir) (i : Nat) : ReviewDir :=
  (List.range (i + 1)).foldl (fun d j => (runs j).review d) (startRun dir)

theorem CodexRun.elapsed_eq (run : CodexRun) : run.elapsed = run.after.now - run.before.now := by
  rw [elapsed, monotonicCentiseconds_procUptime, monotonicCentiseconds_procUptime]

/-- Run number `i` is resumed after. -/
def Resumed (disableAutoResume : Bool) (runs : Nat → CodexRun) (dir : ReviewDir) (i : Nat) : Prop :=
  (dirAfter runs dir i).accepted = false ∧ disableAutoResume = false ∧
    minRuntimeForResumeCentiseconds ≤ (runs i).after.now - (runs i).before.now ∧ i < maxResumes

/-- The variables are those of the last run, and every earlier one was resumed after. -/
structure AfterRuns (disableAutoResume : Bool) (runs : Nat → CodexRun) (dir : ReviewDir)
    (s : LoopState) : Prop where
  status : s.status = (runs s.resumeCount).status
  elapsed : s.elapsed = (runs s.resumeCount).after.now - (runs s.resumeCount).before.now
  shared : s.dir = dirAfter runs dir s.resumeCount
  made : s.made = (List.range (s.resumeCount + 1)).map runs
  bound : s.resumeCount ≤ maxResumes
  resumed : ∀ i < s.resumeCount, Resumed disableAutoResume runs dir i

theorem AfterRuns.goesOn_iff {disableAutoResume : Bool} {runs : Nat → CodexRun} {dir : ReviewDir}
    {s : LoopState} (h : AfterRuns disableAutoResume runs dir s) :
    s.goesOn disableAutoResume = true ↔ Resumed disableAutoResume runs dir s.resumeCount := by
  rw [LoopState.goesOn, Resumed, ← h.shared, ← h.elapsed]
  simp only [Bool.and_eq_true, Bool.not_eq_true', decide_eq_true_eq, and_assoc]

theorem afterRuns_first (disableAutoResume : Bool) (runs : Nat → CodexRun) (dir : ReviewDir) :
    AfterRuns disableAutoResume runs dir (firstAttempt (runs 0) (startRun dir)) where
  status := rfl
  elapsed := (runs 0).elapsed_eq
  shared := rfl
  made := rfl
  bound := Nat.zero_le _
  resumed := fun i hi => absurd hi (Nat.not_lt_zero i)

theorem AfterRuns.resume {disableAutoResume : Bool} {runs : Nat → CodexRun} {dir : ReviewDir}
    {s : LoopState} (h : AfterRuns disableAutoResume runs dir s)
    (hgoes : s.goesOn disableAutoResume = true) :
    AfterRuns disableAutoResume runs dir (s.resume (runs (s.resumeCount + 1))) where
  status := rfl
  elapsed := CodexRun.elapsed_eq _
  shared := by
    rw [dirAfter, LoopState.resume, List.range_succ, List.foldl_append, ← dirAfter, ← h.shared]
    rfl
  made := by
    rw [LoopState.resume, h.made, List.range_succ (n := s.resumeCount + 1), List.map_append]
    rfl
  bound := (h.goesOn_iff.mp hgoes).2.2.2
  resumed := by
    intro i hi
    obtain hi | rfl := Nat.lt_succ_iff_lt_or_eq.mp hi
    · exact h.resumed i hi
    · exact h.goesOn_iff.mp hgoes

theorem afterRuns_resumeLoop {disableAutoResume : Bool} {runs : Nat → CodexRun} {dir : ReviewDir}
    {s : LoopState} (h : AfterRuns disableAutoResume runs dir s) :
    AfterRuns disableAutoResume runs dir (resumeLoop disableAutoResume runs s) ∧
      (resumeLoop disableAutoResume runs s).goesOn disableAutoResume = false := by
  induction s using resumeLoop.induct disableAutoResume runs with
  | case1 s hgoes ih =>
    rw [resumeLoop, dif_pos hgoes]
    exact ih (h.resume hgoes)
  | case2 s hends =>
    rw [resumeLoop, dif_neg hends]
    exact ⟨h, Bool.eq_false_iff.mpr hends⟩

/-- What `runLoop` is told of run number `i`. -/
def attempt (lines : Nat → List String) (runs : Nat → CodexRun) (dir : ReviewDir) (i : Nat) :
    CodexEvents.Attempt :=
  { lines := lines i, status := (runs i).status,
    elapsed := (runs i).after.now - (runs i).before.now,
    stopReviewAccepted := (dirAfter runs dir i).accepted }

theorem AfterRuns.goesOn_eq {disableAutoResume : Bool} {runs : Nat → CodexRun} {dir : ReviewDir}
    {s : LoopState} (h : AfterRuns disableAutoResume runs dir s) (lines : Nat → List String) :
    s.goesOn disableAutoResume =
      (CodexEvents.mayResume disableAutoResume (attempt lines runs dir s.resumeCount) &&
        decide (s.resumeCount < maxResumes)) := by
  rw [LoopState.goesOn, h.shared, h.elapsed]
  rfl

theorem resumes_eq {disableAutoResume : Bool} {runs : Nat → CodexRun} {dir : ReviewDir}
    {s : LoopState} (h : AfterRuns disableAutoResume runs dir s) (lines : Nat → List String) :
    ∃ k, (resumeLoop disableAutoResume runs s).resumeCount = s.resumeCount + k ∧
      CodexEvents.resumes disableAutoResume (attempt lines runs dir) (maxResumes - s.resumeCount)
          (s.resumeCount + 1) (attempt lines runs dir s.resumeCount) =
        (List.range' (s.resumeCount + 1) k).map (attempt lines runs dir) := by
  induction s using resumeLoop.induct disableAutoResume runs with
  | case1 s hgoes ih =>
    obtain ⟨k, hcount, hresumes⟩ := ih (h.resume hgoes)
    have hmay := hgoes
    rw [h.goesOn_eq lines, Bool.and_eq_true, decide_eq_true_eq] at hmay
    refine ⟨k + 1, ?_, ?_⟩
    · rw [resumeLoop, dif_pos hgoes, hcount]
      simp only [LoopState.resume]
      omega
    · have hleft : maxResumes - s.resumeCount = maxResumes - (s.resumeCount + 1) + 1 := by omega
      rw [hleft, CodexEvents.resumes, if_pos hmay.1, List.range'_succ, List.map_cons]
      exact congrArg _ hresumes
  | case2 s hends =>
    refine ⟨0, by rw [resumeLoop, dif_neg hends]; rfl, ?_⟩
    cases hleft : maxResumes - s.resumeCount with
    | zero => rfl
    | succ left =>
      have hlt : s.resumeCount < maxResumes := by omega
      rw [h.goesOn_eq lines, decide_eq_true hlt, Bool.and_true] at hends
      rw [CodexEvents.resumes, if_neg hends]
      rfl

/-- The attempts that the stream of events is read from are those of the script. -/
theorem runLoop_eq (disableAutoResume : Bool) (lines : Nat → List String) (runs : Nat → CodexRun)
    (dir : ReviewDir) :
    CodexEvents.runLoop disableAutoResume (attempt lines runs dir) =
      (List.range ((codexRunLoop disableAutoResume runs dir).resumeCount + 1)).map
        (attempt lines runs dir) := by
  obtain ⟨k, hcount, hresumes⟩ :=
    resumes_eq (afterRuns_first disableAutoResume runs dir) lines
  have hmade : (codexRunLoop disableAutoResume runs dir).resumeCount = k :=
    hcount.trans (Nat.zero_add k)
  rw [hmade, List.range_eq_range', List.range'_succ, List.map_cons]
  exact congrArg _ hresumes

/-- The hook counts over all runs of Codex, whatever attempt a payload belongs to. -/
theorem accepted_over_attempts {runs : Nat → CodexRun} {payloads : Nat → List String}
    (h : ∀ i d, (runs i).review d = (payloads i).foldl stopHook d) (dir : ReviewDir) (i : Nat) :
    (dirAfter runs dir i).accepted = true ↔
      ∃ earlier, earlier <+: (List.range (i + 1)).flatMap payloads ∧ TenConverged earlier := by
  have hflat : dirAfter runs dir i =
      ((List.range (i + 1)).flatMap payloads).foldl stopHook (startRun dir) := by
    rw [dirAfter, List.foldl_flatMap]
    simp only [h]
  rw [hflat]
  exact (counts_run dir _).accepted

/-- Ten payloads in a row are accepted and stay accepted; the loop resumes after every run that left
no acceptance, lasted a second and was not the last allowed, and only then. -/
theorem resume_policy_exact :
    (∀ (dir : ReviewDir) (payloads : List String),
      (payloads.foldl stopHook (startRun dir)).accepted = true ↔
        ∃ earlier, earlier <+: payloads ∧ TenConverged earlier) ∧
    ∀ (disableAutoResume : Bool) (runs : Nat → CodexRun) (dir : ReviewDir),
      ∃ last ≤ 100, (codexRunLoop disableAutoResume runs dir).made =
          (List.range (last + 1)).map runs ∧
        (∀ i ≤ last, i < last ↔
          (dirAfter runs dir i).accepted = false ∧ disableAutoResume = false ∧
            100 ≤ (runs i).after.now - (runs i).before.now ∧ i < 100) ∧
        (codexRunLoop disableAutoResume runs dir).status = (runs last).status := by
  refine ⟨fun dir payloads => (counts_run dir payloads).accepted, fun disableAutoResume runs dir => ?_⟩
  obtain ⟨hafter, hends⟩ := afterRuns_resumeLoop (afterRuns_first disableAutoResume runs dir)
  refine ⟨_, hafter.bound, hafter.made, fun i hi => ⟨hafter.resumed i, fun hresumed => ?_⟩,
    hafter.status⟩
  refine lt_of_le_of_ne hi ?_
  rintro rfl
  rw [hafter.goesOn_iff.mpr hresumed] at hends
  cases hends

end RunLoop

end A3sBench.ResumePolicy
