import A3sBench.DecimalScore
import A3sBench.RunDirectory

/-!
# The metrics of a JudgeResult

`validate_judge_result` compares the number of metrics with the number the Task
declares and looks each declared one up. `load_local` accepts a name declared
twice, which counts two and is found in one place.
-/

namespace A3sBench

/-- `>=` and `<=` on `f64`, which no NaN meets. -/
def F64.le : F64 → F64 → Bool
  | .finite x, .finite y => x ≤ y
  | .finite _, .infinity negative => !negative
  | .infinity negative, .finite _ => negative
  | .infinity left, .infinity right => left || !right
  | _, _ => false

namespace Runtime

open ResultRecord (canonicalDecimal)

/-- The check of a value against a declared range. -/
def inRange (metric : MetricInfo) (number : F64) : Bool :=
  number.isFinite && F64.le metric.min number && F64.le number metric.max

section Validate

-- how an `f64` is printed
variable (display : F64 → String)

def validateMetric (result : JudgeResult) (metric : MetricInfo) : Result Unit := do
  let value ← okOr ((result.metrics.lookup metric.name).bind Json.asStr)
    ("Judge metric " ++ metric.name.quote ++ " must be a decimal string")
  ensure (canonicalDecimal value = true)
    ("Judge metric " ++ metric.name.quote ++ " is not canonical")
  let number ← context "invalid Judge metric number" (F64.parse value)
  ensure (inRange metric number = true)
    ("Judge metric " ++ metric.name.quote ++ " is outside [" ++ display metric.min ++ ", " ++
      display metric.max ++ "]")

def validateJudgeResult (task : TaskInfo) (result : JudgeResult) : Result Unit := do
  ensure (result.solutionVerdict = "valid") "Judge solution_verdict must be \"valid\""
  ensure (result.metrics.length = task.metrics.length) "Judge metric set does not match Task"
  task.metrics.forM (validateMetric display result)

end Validate

/-- A canonical decimal within the range of a metric, as `f64` reads it. -/
def Within (metric : MetricInfo) (value : String) : Prop :=
  canonicalDecimal value = true ∧ ∃ number, F64.parse value = .ok number ∧
    inRange metric number = true

/-- The metrics of a result are a map. -/
def IsMap (result : JudgeResult) : Prop := (result.metrics.map Prod.fst).Nodup

/-- Exactly the declared names, each with a value in every range of that name. -/
structure MeetsTask (task : TaskInfo) (result : JudgeResult) : Prop where
  names : ∀ name, name ∈ result.metrics.map Prod.fst ↔ name ∈ task.metrics.map MetricInfo.name
  values : ∀ metric ∈ task.metrics, ∀ value, (metric.name, value) ∈ result.metrics →
    ∃ text, value = .string text ∧ Within metric text

/-- No canonical decimal is in all the ranges declared for one of the names. -/
def Unmeetable (task : TaskInfo) : Prop :=
  ∃ metric ∈ task.metrics, ∀ text, canonicalDecimal text = true →
    ∃ other ∈ task.metrics, other.name = metric.name ∧ ¬ Within other text

section

variable {display : F64 → String} {task : TaskInfo} {result : JudgeResult}

theorem lookup_eq_some_iff (hmap : IsMap result) {name : String} {value : Json} :
    result.metrics.lookup name = some value ↔ (name, value) ∈ result.metrics := by
  unfold IsMap at hmap
  generalize result.metrics = metrics at hmap
  induction metrics with
  | nil => simp
  | cons pair metrics ih =>
    obtain ⟨key, found⟩ := pair
    rw [List.map_cons, List.nodup_cons] at hmap
    rw [List.lookup_cons, List.mem_cons, Prod.mk.injEq]
    by_cases hkey : name = key
    · subst hkey
      have habsent : (name, value) ∉ metrics := fun hmem =>
        hmap.1 (List.mem_map.mpr ⟨_, hmem, rfl⟩)
      simp [habsent, eq_comm]
    · rw [beq_false_of_ne hkey]
      simp [hkey, ih hmap.2]

theorem validateMetric_ok_iff {metric : MetricInfo} :
    validateMetric display result metric = .ok () ↔
      ∃ text, result.metrics.lookup metric.name = some (.string text) ∧ Within metric text := by
  simp only [validateMetric, Result.bind_ok_iff, Result.okOr_ok_iff, Result.exists_unit_iff,
    Result.ensure_ok_iff, Result.context_ok_iff, Option.bind_eq_some_iff, Within]
  constructor
  · rintro ⟨text, ⟨value, hlookup, hstr⟩, hcanonical, hnumber⟩
    cases value with
    | string value =>
      obtain rfl := Option.some.inj hstr
      exact ⟨value, hlookup, hcanonical, hnumber⟩
    | null | bool | number | array | object => cases hstr
  · rintro ⟨text, hlookup, hcanonical, hnumber⟩
    exact ⟨text, ⟨_, hlookup, rfl⟩, hcanonical, hnumber⟩

theorem validateJudgeResult_ok_iff :
    validateJudgeResult display task result = .ok () ↔
      result.solutionVerdict = "valid" ∧ result.metrics.length = task.metrics.length ∧
        ∀ metric ∈ task.metrics, ∃ text,
          result.metrics.lookup metric.name = some (.string text) ∧ Within metric text := by
  simp only [validateJudgeResult, Result.bind_ok_iff, Result.exists_unit_iff, Result.ensure_ok_iff,
    Result.forM_ok_iff, validateMetric_ok_iff]

/-- What is looked up is in the result, and in range. -/
theorem declared_of_validate (hmap : IsMap result)
    (h : validateJudgeResult display task result = .ok ()) :
    (∀ name ∈ task.metrics.map MetricInfo.name, name ∈ result.metrics.map Prod.fst) ∧
      ∀ metric ∈ task.metrics, ∀ value, (metric.name, value) ∈ result.metrics →
        ∃ text, value = .string text ∧ Within metric text := by
  obtain ⟨-, -, hall⟩ := validateJudgeResult_ok_iff.mp h
  constructor
  · intro name hname
    obtain ⟨metric, hmetric, rfl⟩ := List.mem_map.mp hname
    obtain ⟨text, hlookup, -⟩ := hall metric hmetric
    exact List.mem_map_of_mem (f := Prod.fst) ((lookup_eq_some_iff hmap).mp hlookup)
  · intro metric hmetric value hvalue
    obtain ⟨text, hlookup, hwithin⟩ := hall metric hmetric
    rw [(lookup_eq_some_iff hmap).mpr hvalue] at hlookup
    exact ⟨text, Option.some.inj hlookup, hwithin⟩

/-- Counting is enough when the declared names are different. -/
theorem meetsTask_of_nodup (hmap : IsMap result) (hnodup : (task.metrics.map MetricInfo.name).Nodup)
    (h : validateJudgeResult display task result = .ok ()) : MeetsTask task result := by
  obtain ⟨hdeclared, hvalues⟩ := declared_of_validate hmap h
  obtain ⟨-, hlength, -⟩ := validateJudgeResult_ok_iff.mp h
  have hperm : (task.metrics.map MetricInfo.name).Perm (result.metrics.map Prod.fst) := by
    have hsub := List.subperm_of_subset hnodup hdeclared
    apply hsub.perm_of_length_le
    rw [List.length_map, List.length_map, hlength]
  exact ⟨fun name => hperm.mem_iff.symm, hvalues⟩

theorem exists_fresh_names (names : List String) (n : Nat) :
    ∃ fresh : List String, fresh.length = n ∧ fresh.Nodup ∧ ∀ name ∈ fresh, name ∉ names := by
  have hinfinite : Infinite String :=
    Infinite.of_injective String.ofList fun _ _ h => String.ofList_injective h
  obtain ⟨s, hs, hcard⟩ := (names.toFinset.finite_toSet.infinite_compl).exists_subset_card_eq n
  refine ⟨s.toList, by rw [Finset.length_toList, hcard], s.nodup_toList, fun name hname => ?_⟩
  have hnot := hs (Finset.mem_toList.mp hname)
  simpa using hnot

/-- A result for a Task with a repeated name: the missing number of metrics is
made up of undeclared ones. -/
theorem exists_padded_result (hmeetable : ¬ Unmeetable task)
    (hnodup : ¬ (task.metrics.map MetricInfo.name).Nodup) :
    ∃ result, IsMap result ∧ validateJudgeResult display task result = .ok () ∧
      ¬ MeetsTask task result := by
  simp only [Unmeetable, not_exists, not_and, not_forall, not_not] at hmeetable
  have hvalue : ∀ name ∈ task.metrics.map MetricInfo.name, ∃ text, canonicalDecimal text = true ∧
      ∀ other ∈ task.metrics, other.name = name → Within other text := by
    intro name hname
    obtain ⟨metric, hmetric, rfl⟩ := List.mem_map.mp hname
    obtain ⟨text, hcanonical, hall⟩ := hmeetable metric hmetric
    exact ⟨text, hcanonical, hall⟩
  choose! text _ hwithin using hvalue
  let names := (task.metrics.map MetricInfo.name).dedup
  have hshort : names.length < task.metrics.length := by
    have hsub := List.dedup_sublist (task.metrics.map MetricInfo.name)
    refine lt_of_le_of_ne (by simpa using hsub.length_le) fun heq => hnodup ?_
    have hself := hsub.eq_of_length (by simpa using heq)
    rw [← hself]
    exact List.nodup_dedup _
  obtain ⟨fresh, hlength, hfresh, hnew⟩ :=
    exists_fresh_names names (task.metrics.length - names.length)
  have hkeys : (names ++ fresh).Nodup := by
    rw [List.nodup_append]
    refine ⟨List.nodup_dedup _, hfresh, fun a ha b hb heq => hnew b hb (heq ▸ ha)⟩
  let result : JudgeResult :=
    { schema := "bench.judge.result.v1"
      solutionVerdict := "valid"
      metrics := (names ++ fresh).map (fun name => (name, .string (text name)))
      diagnostics := .null }
  have hmap : IsMap result := by
    have hfst : result.metrics.map Prod.fst = names ++ fresh := by
      simp [result, Function.comp_def]
    rw [IsMap, hfst]
    exact hkeys
  refine ⟨result, hmap, ?_, fun hmeets => ?_⟩
  · rw [validateJudgeResult_ok_iff]
    refine ⟨rfl, ?_, fun metric hmetric => ⟨text metric.name, ?_, ?_⟩⟩
    · simp only [result, List.length_map, List.length_append, hlength]
      omega
    · rw [lookup_eq_some_iff hmap]
      have hname : metric.name ∈ names :=
        List.mem_dedup.mpr (List.mem_map_of_mem (f := MetricInfo.name) hmetric)
      exact List.mem_map.mpr ⟨metric.name, List.mem_append_left _ hname, rfl⟩
    · exact hwithin metric.name (List.mem_map_of_mem (f := MetricInfo.name) hmetric) metric hmetric
        rfl
  · obtain ⟨name, rest, hcons⟩ := List.exists_cons_of_length_pos
      (show 0 < fresh.length by omega)
    have hmem : name ∈ fresh := hcons ▸ List.mem_cons_self
    have hfst : name ∈ result.metrics.map Prod.fst := by simp [result, hmem]
    exact hnew name hmem (List.mem_dedup.mpr ((hmeets.names name).mp hfst))

end

def doubledFiles : TaskSource.TaskFiles :=
  { document := .ok ⟨[.mk "bench" ["t"]
      [("schema", .string "a3s-bench/task/v1"), ("version", .string "1"), ("name", .string "T"),
        ("category", .string "c")]
      [.mk "work" [] [] [.mk "image" [] [("ref", .string "alpine")] []],
        .mk "judge" [] [("asset", .string "oci://j")] [],
        .mk "metric" ["m"]
          [("role", .string "primary"), ("min", .number "0"), ("max", .number "1")] [],
        .mk "metric" ["m"]
          [("role", .string "secondary"), ("min", .number "0"), ("max", .number "1")] []]]⟩
    legacyJudge := .ok none
    hasAssetAcl := fun _ => false }

def doubledTask : TaskInfo :=
  { Lock.sampleTask with
    metrics :=
      [{ name := "m", min := .finite 0, max := .finite 1, role := "primary" },
        { name := "m", min := .finite 0, max := .finite 1, role := "secondary" }] }

/-- The second metric of the result is not declared. -/
def paddedResult : JudgeResult :=
  { schema := "bench.judge.result.v1"
    solutionVerdict := "valid"
    metrics := [("m", .string "0.5"), ("x", .string "7")]
    diagnostics := .null }

end Runtime

end A3sBench
