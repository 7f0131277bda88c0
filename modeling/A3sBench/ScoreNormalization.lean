import A3sBench.Float64
import A3sBench.Json
import A3sBench.Library.Polyline

/-!
# The normalization of a score

`normalize_raw` and its curves. The number format is a parameter, so that the
same definitions compute on doubles and, exactly, on rationals.
-/

namespace A3sBench.LegacyJudge

open Library

/-- A number format: its literals, comparisons and operations. -/
structure Numbers (F : Type) where
  ofRat : ℚ → F
  parse : String → Option F
  isFinite : F → Bool
  lt : F → F → Bool
  le : F → F → Bool
  eq : F → F → Bool
  add : F → F → F
  sub : F → F → F
  mul : F → F → F
  div : F → F → F
  ln : F → F
  ln1p : F → F

inductive RescaleHint (F : Type) where
  | linear (lower upper : F)
  | minLinear (baseline expert : F)
  | minLinearPositive (baseline expert : F)
  | minInverseAnchor (anchorRaw anchorScore : F)
  | compressionRatioCroppedGuarded (baseline expert : F)
  | logAnchor (anchorRaw anchorScore : F)
  | piecewiseMax (baseline rank1 rank30 superAnchor : F)
  | logMax (baseline expert : F)
  | piecewiseLogMin (baseline rank1 rank30 superAnchor : F)
  | log1pMax (baseline upper : F)
  | logMin (baseline expert : F)
  | piecewiseMin (baseline rank1 rank30 superAnchor : F)

namespace RescaleHint

variable {F : Type}

/-- The tag. -/
def kind : RescaleHint F → String
  | linear .. => "linear"
  | minLinear .. => "min_linear"
  | minLinearPositive .. => "min_linear_positive"
  | minInverseAnchor .. => "min_inverse_anchor"
  | compressionRatioCroppedGuarded .. => "compression_ratio_cropped_guarded"
  | logAnchor .. => "log_anchor"
  | piecewiseMax .. => "piecewise_max"
  | logMax .. => "log_max"
  | piecewiseLogMin .. => "piecewise_log_min"
  | log1pMax .. => "log1p_max"
  | logMin .. => "log_min"
  | piecewiseMin .. => "piecewise_min"

def fields : RescaleHint F → List (String × F)
  | linear lower upper => [("lower", lower), ("upper", upper)]
  | minLinear baseline expert | minLinearPositive baseline expert
  | compressionRatioCroppedGuarded baseline expert | logMax baseline expert
  | logMin baseline expert => [("baseline", baseline), ("expert", expert)]
  | minInverseAnchor anchorRaw anchorScore | logAnchor anchorRaw anchorScore =>
    [("anchor_raw", anchorRaw), ("anchor_score", anchorScore)]
  | piecewiseMax baseline rank1 rank30 superAnchor
  | piecewiseLogMin baseline rank1 rank30 superAnchor
  | piecewiseMin baseline rank1 rank30 superAnchor =>
    [("baseline", baseline), ("rank1", rank1), ("rank30", rank30), ("super_anchor", superAnchor)]
  | log1pMax baseline upper => [("baseline", baseline), ("upper", upper)]

end RescaleHint

namespace Numbers

variable {F : Type} (N : Numbers F)

/-- `Value::as_f64`. -/
def asF64 : Json → Option F
  | .number (.posInt value) => some (N.ofRat value.toNat)
  | .number (.negInt value) => some (N.ofRat value)
  | .number (.float text) => N.parse text
  | _ => none

def clamp (x low high : F) : F :=
  if N.lt x low then low else if N.lt high x then high else x

def scale (numerator denominator : F) : F :=
  if N.eq denominator (N.ofRat 0) || !N.isFinite numerator || !N.isFinite denominator then
    N.ofRat 0
  else N.div numerator denominator

/-! ## The piecewise curves -/

/-- `value` of `piecewise`. -/
def anchor (spec : Json) (name : String) : Result F :=
  okOr ((spec.get name).bind N.asF64) ("rescale is missing " ++ name)

def ordered (minimize : Bool) (points : List F) : Bool :=
  (points.zip points.tail).all (fun pair =>
    if minimize then N.lt pair.2 pair.1 else N.lt pair.1 pair.2)

def transformed (logarithmic : Bool) (item : F) : F := if logarithmic then N.ln item else item

/-- The loop over the segments. -/
def alongSegments (minimize logarithmic : Bool) (raw : F) : List (F × F) → F
  | (p, s) :: (q, t) :: rest =>
    let inside := if minimize then N.le raw p && N.le q raw else N.le p raw && N.le raw q
    if inside then
      let fraction := N.scale
        (N.sub (N.transformed logarithmic raw) (N.transformed logarithmic p))
        (N.sub (N.transformed logarithmic q) (N.transformed logarithmic p))
      N.clamp (N.add s (N.mul fraction (N.sub t s))) s t
    else alongSegments minimize logarithmic raw ((q, t) :: rest)
  | _ => N.ofRat 0

def piecewise (raw : F) (spec : Json) (minimize logarithmic : Bool) : Result F := do
  let baseline ← N.anchor spec "baseline"
  let rank30 ← N.anchor spec "rank30"
  let rank1 ← N.anchor spec "rank1"
  let superAnchor ← N.anchor spec "super_anchor"
  let zero := N.ofRat 0
  let points := [baseline, rank30, rank1, superAnchor]
  let scores := [zero, N.ofRat 20, N.ofRat 80, N.ofRat 100]
  if !N.ordered minimize points || (logarithmic && points.any (fun point => N.le point zero)) then
    pure zero
  else if minimize && N.le raw zero then pure zero
  else if logarithmic && N.le raw zero then pure zero
  else if (minimize && N.le baseline raw) || (!minimize && N.le raw baseline) then pure zero
  else if (minimize && N.le raw superAnchor) || (!minimize && N.le superAnchor raw) then
    pure (N.ofRat 100)
  else pure (N.alongSegments minimize logarithmic raw (points.zip scores))

/-! ## The kinds -/

/-- `get` of `normalize_raw`. -/
def field (spec : Json) (name : String) : Result F := do
  let value ← okOr ((spec.get name).bind N.asF64) ("rescale is missing " ++ name)
  ensure (N.isFinite value = true) ("rescale " ++ name ++ " is not finite")
  pure value

/-- The line that three of the kinds share. -/
def fallingLine (spec : Json) (raw : F) : Result F := do
  let baseline ← N.field spec "baseline"
  let expert ← N.field spec "expert"
  pure (N.scale (N.mul (N.ofRat 100) (N.sub baseline raw)) (N.sub baseline expert))

/-- The percentage of a kind, before it is clamped; `debug` is how `{:?}` prints a string. -/
def percent (debug : String → String) (spec : Json) (raw : F) : Result F :=
  let zero := N.ofRat 0
  match ((spec.get "kind").bind Json.asStr).getD "" with
  | "linear" => do
    let lower ← N.field spec "lower"
    let upper ← N.field spec "upper"
    pure (N.scale (N.mul (N.ofRat 100) (N.sub raw lower)) (N.sub upper lower))
  | "min_linear" => N.fallingLine spec raw
  | "min_linear_positive" => if N.le raw zero then pure zero else N.fallingLine spec raw
  | "min_inverse_anchor" => do
    let anchorRaw ← N.field spec "anchor_raw"
    if N.le raw zero || N.le anchorRaw zero then pure zero
    else do
      let anchorScore ← N.field spec "anchor_score"
      pure (N.div (N.mul anchorScore anchorRaw) raw)
  | "compression_ratio_cropped_guarded" =>
    if N.lt raw (N.ofRat (5 / 100)) then pure zero else N.fallingLine spec raw
  | "log_anchor" => do
    let anchorRaw ← N.field spec "anchor_raw"
    if N.le raw (N.ofRat 1) || N.le anchorRaw (N.ofRat 1) then pure zero
    else do
      let anchorScore ← N.field spec "anchor_score"
      pure (N.scale (N.mul anchorScore (N.ln raw)) (N.ln anchorRaw))
  | "log_max" => do
    let baseline ← N.field spec "baseline"
    let expert ← N.field spec "expert"
    if N.le raw zero || N.le baseline zero || N.le expert zero || N.eq baseline expert then
      pure zero
    else
      pure (N.scale (N.mul (N.ofRat 100) (N.ln (N.div raw baseline))) (N.ln (N.div expert baseline)))
  | "log_min" => do
    let baseline ← N.field spec "baseline"
    let expert ← N.field spec "expert"
    if N.le raw zero || N.le baseline zero || N.le expert zero || N.eq baseline expert then
      pure zero
    else
      pure (N.scale (N.mul (N.ofRat 100) (N.ln (N.div baseline raw))) (N.ln (N.div baseline expert)))
  | "log1p_max" => do
    let baseline ← N.field spec "baseline"
    let upper ← N.field spec "upper"
    if N.le raw zero || N.le baseline zero || N.le upper zero then pure zero
    else
      pure (N.scale (N.mul (N.ofRat 100) (N.ln1p (N.div raw baseline)))
        (N.ln1p (N.div upper baseline)))
  | "piecewise_max" => N.piecewise raw spec false false
  | "piecewise_min" => N.piecewise raw spec true false
  | "piecewise_log_min" => N.piecewise raw spec true true
  | kind => .error ("unsupported rescale kind " ++ debug kind)

def normalizeRaw (debug : String → String) (spec : Option Json) (raw : F) : Result F :=
  if !N.isFinite raw then .ok (N.ofRat 0)
  else
    match spec with
    | none => .ok (N.div (N.clamp raw (N.ofRat 0) (N.ofRat 100)) (N.ofRat 100))
    | some spec => do
      let percent ← N.percent debug spec raw
      pure (if N.isFinite percent then
        N.div (N.clamp percent (N.ofRat 0) (N.ofRat 100)) (N.ofRat 100)
      else N.ofRat 0)

/-- The specification holds a hint: its tag and its fields, which read back. -/
def Holds (spec : Json) (hint : RescaleHint F) : Prop :=
  spec.get "kind" = some (.string hint.kind) ∧
    ∀ field ∈ hint.fields, (spec.get field.1).bind N.asF64 = some field.2

/-- A literal without rounding. -/
def parseExact (text : String) : Option ℚ :=
  let (negative, literal) := F64.splitSign text.toList
  (F64.parseUnsigned literal).map (fun value => if negative then -value else value)

/-- Rationals, with any functions for the logarithms. -/
@[simps]
def exact (ln ln1p : ℚ → ℚ) : Numbers ℚ where
  ofRat := id
  parse := parseExact
  isFinite := fun _ => true
  lt := fun x y => x < y
  le := fun x y => x ≤ y
  eq := fun x y => x = y
  add := fun x y => x + y
  sub := fun x y => x - y
  mul := fun x y => x * y
  div := fun x y => x / y
  ln := ln
  ln1p := ln1p

end Numbers

/-! ## The curves, in percent -/

/-- The points of a piecewise kind with their scores. -/
def knots (baseline rank1 rank30 superAnchor : ℚ) : List (ℚ × ℚ) :=
  [(baseline, 0), (rank30, 20), (rank1, 80), (superAnchor, 100)]

/-- A curve read from right to left. -/
def mirror (knots : List (ℚ × ℚ)) : List (ℚ × ℚ) := knots.map (fun k => (-k.1, k.2))

def curve : Option (RescaleHint ℚ) → ℚ → ℚ
  | none, raw => polyline [(0, 0), (100, 100)] raw
  | some (.linear lower upper), raw => polyline [(lower, 0), (upper, 100)] raw
  | some (.minLinear baseline expert), raw
  | some (.minLinearPositive baseline expert), raw =>
    polyline (mirror [(baseline, 0), (expert, 100)]) (-raw)
  | some (.minInverseAnchor anchorRaw anchorScore), raw =>
    if anchorRaw ≤ 0 then 0 else min (anchorScore * anchorRaw / raw) 100
  | some (.piecewiseMax baseline rank1 rank30 superAnchor), raw =>
    polyline (knots baseline rank1 rank30 superAnchor) raw
  | some (.piecewiseMin baseline rank1 rank30 superAnchor), raw =>
    polyline (mirror (knots baseline rank1 rank30 superAnchor)) (-raw)
  | _, _ => 0

/-- The bounds of a rescale are in order. -/
def Ordered : Option (RescaleHint ℚ) → Prop
  | none => True
  | some (.linear lower upper) => lower < upper
  | some (.minLinear baseline expert) | some (.minLinearPositive baseline expert) =>
    expert < baseline
  | some (.minInverseAnchor _ anchorScore) => 0 ≤ anchorScore
  | some (.piecewiseMax baseline rank1 rank30 superAnchor) =>
    baseline < rank30 ∧ rank30 < rank1 ∧ rank1 < superAnchor
  | some (.piecewiseMin baseline rank1 rank30 superAnchor) =>
    rank30 < baseline ∧ rank1 < rank30 ∧ superAnchor < rank1
  | _ => False

def minimizes : Option (RescaleHint ℚ) → Bool
  | some (.minLinear ..) | some (.minLinearPositive ..) | some (.minInverseAnchor ..)
  | some (.piecewiseMin ..) => true
  | _ => false

/-- The raw scores a rescale is meant for. -/
def Admits : Option (RescaleHint ℚ) → ℚ → Prop
  | some (.minLinearPositive ..), raw | some (.minInverseAnchor ..), raw
  | some (.piecewiseMin ..), raw => 0 < raw
  | _, _ => True

/-- The anchors of a piecewise kind with the ratios they stand for. -/
def anchors : Option (RescaleHint ℚ) → List (ℚ × ℚ)
  | some (.piecewiseMax baseline rank1 rank30 superAnchor)
  | some (.piecewiseMin baseline rank1 rank30 superAnchor) =>
    [(baseline, 0), (rank30, 1 / 5), (rank1, 4 / 5), (superAnchor, 1)]
  | _ => []

section Curve

variable {hint : Option (RescaleHint ℚ)}

/-- Knots in order that start at no and end at full score. -/
structure IsScale (p : ℚ × ℚ) (rest : List (ℚ × ℚ)) : Prop where
  rising : Rising (p :: rest)
  first : p.2 = 0
  last : ∀ k ∈ p :: rest, k.2 ≤ 100

theorem isScale_line {p q : ℚ} (h : p < q) : IsScale (p, 0) [(q, 100)] where
  rising := rising_cons_cons.mpr ⟨⟨h, by norm_num⟩, List.isChain_singleton _⟩
  first := rfl
  last := by simp

theorem isScale_knots {a b c d : ℚ} (hab : a < b) (hbc : b < c) (hcd : c < d) :
    IsScale (a, 0) [(b, 20), (c, 80), (d, 100)] where
  rising := rising_cons_cons.mpr ⟨⟨hab, by norm_num⟩, rising_cons_cons.mpr ⟨⟨hbc, by norm_num⟩,
    rising_cons_cons.mpr ⟨⟨hcd, by norm_num⟩, List.isChain_singleton _⟩⟩⟩
  first := rfl
  last := by norm_num

/-- Every curve but the inverse one goes through a scale, read from one of its sides. -/
theorem curve_eq_polyline (hordered : Ordered hint)
    (hinverse : ¬ ∃ a s, hint = some (.minInverseAnchor a s)) : ∃ p rest, IsScale p rest ∧
      ∀ raw, curve hint raw = polyline (p :: rest) (if minimizes hint then -raw else raw) := by
  cases hint with
  | none => exact ⟨_, _, isScale_line (by norm_num), fun raw => rfl⟩
  | some hint =>
    cases hint with
    | linear lower upper => exact ⟨_, _, isScale_line hordered, fun raw => rfl⟩
    | minLinear baseline expert | minLinearPositive baseline expert =>
      exact ⟨_, _, isScale_line (neg_lt_neg hordered), fun raw => rfl⟩
    | minInverseAnchor a s => exact absurd ⟨a, s, rfl⟩ hinverse
    | piecewiseMax baseline rank1 rank30 superAnchor =>
      obtain ⟨hab, hbc, hcd⟩ := hordered
      exact ⟨_, _, isScale_knots hab hbc hcd, fun raw => rfl⟩
    | piecewiseMin baseline rank1 rank30 superAnchor =>
      obtain ⟨hab, hbc, hcd⟩ := hordered
      exact ⟨_, _, isScale_knots (neg_lt_neg hab) (neg_lt_neg hbc) (neg_lt_neg hcd), fun raw => rfl⟩
    | compressionRatioCroppedGuarded | logAnchor | logMax | piecewiseLogMin | log1pMax | logMin =>
      exact absurd hordered id

theorem curve_inverse_bounds {a s raw : ℚ} (hs : 0 ≤ s) (hraw : 0 < raw) :
    0 ≤ curve (some (.minInverseAnchor a s)) raw ∧
      curve (some (.minInverseAnchor a s)) raw ≤ 100 := by
  rw [curve]
  split_ifs with ha
  · exact ⟨le_rfl, by norm_num⟩
  · have hpos : 0 ≤ s * a / raw := div_nonneg (mul_nonneg hs (not_le.mp ha).le) hraw.le
    exact ⟨le_min hpos (by norm_num), min_le_right _ _⟩

theorem curve_bounds (hordered : Ordered hint) {raw : ℚ} (hraw : Admits hint raw) :
    0 ≤ curve hint raw ∧ curve hint raw ≤ 100 := by
  by_cases hinverse : ∃ a s, hint = some (.minInverseAnchor a s)
  · obtain ⟨a, s, rfl⟩ := hinverse
    exact curve_inverse_bounds hordered hraw
  · obtain ⟨p, rest, hscale, hcurve⟩ := curve_eq_polyline hordered hinverse
    rw [hcurve]
    exact ⟨hscale.first.ge.trans (le_polyline hscale.rising), polyline_le hscale.rising hscale.last⟩

theorem curve_inverse_antitone {a s raw raw' : ℚ} (hs : 0 ≤ s) (hraw : 0 < raw) (h : raw ≤ raw') :
    curve (some (.minInverseAnchor a s)) raw' ≤ curve (some (.minInverseAnchor a s)) raw := by
  rw [curve, curve]
  split_ifs with ha
  · exact le_rfl
  · have hpos : 0 ≤ s * a := mul_nonneg hs (not_le.mp ha).le
    exact min_le_min_right _ (div_le_div_of_nonneg_left hpos hraw h)

theorem curve_monotone (hordered : Ordered hint) {raw raw' : ℚ} (hraw : Admits hint raw)
    (h : raw ≤ raw') : if minimizes hint then curve hint raw' ≤ curve hint raw
      else curve hint raw ≤ curve hint raw' := by
  by_cases hinverse : ∃ a s, hint = some (.minInverseAnchor a s)
  · obtain ⟨a, s, rfl⟩ := hinverse
    exact curve_inverse_antitone hordered hraw h
  · obtain ⟨p, rest, hscale, hcurve⟩ := curve_eq_polyline hordered hinverse
    have hmono := polyline_mono hscale.rising
    rw [hcurve, hcurve]
    split_ifs
    · exact hmono (neg_le_neg h)
    · exact hmono h

theorem polyline_anchors (side : ℚ → ℚ) {a b c d : ℚ}
    (h : Rising [(side a, (0 : ℚ)), (side b, 20), (side c, 80), (side d, 100)]) {anchor : ℚ × ℚ}
    (hanchor : anchor ∈ [(a, (0 : ℚ)), (b, 1 / 5), (c, 4 / 5), (d, 1)]) :
    polyline [(side a, 0), (side b, 20), (side c, 80), (side d, 100)] (side anchor.1) =
      100 * anchor.2 := by
  simp only [List.mem_cons, List.not_mem_nil, or_false] at hanchor
  rcases hanchor with rfl | rfl | rfl | rfl
  · exact (polyline_knot h (k := (side a, 0)) (by simp)).trans (by norm_num)
  · exact (polyline_knot h (k := (side b, 20)) (by simp)).trans (by norm_num)
  · exact (polyline_knot h (k := (side c, 80)) (by simp)).trans (by norm_num)
  · exact (polyline_knot h (k := (side d, 100)) (by simp)).trans (by norm_num)

theorem curve_anchors (hordered : Ordered hint) {anchor : ℚ × ℚ} (hanchor : anchor ∈ anchors hint) :
    curve hint anchor.1 = 100 * anchor.2 := by
  cases hint with
  | none => cases hanchor
  | some hint =>
    cases hint with
    | piecewiseMax baseline rank1 rank30 superAnchor =>
      obtain ⟨hab, hbc, hcd⟩ := hordered
      exact polyline_anchors id (isScale_knots hab hbc hcd).rising hanchor
    | piecewiseMin baseline rank1 rank30 superAnchor =>
      obtain ⟨hab, hbc, hcd⟩ := hordered
      exact polyline_anchors Neg.neg
        (isScale_knots (neg_lt_neg hab) (neg_lt_neg hbc) (neg_lt_neg hcd)).rising hanchor
    | linear | minLinear | minLinearPositive | minInverseAnchor | compressionRatioCroppedGuarded
    | logAnchor | logMax | piecewiseLogMin | log1pMax | logMin => cases hanchor

end Curve

/-! ## The code follows the curves -/

section Exact

variable {ln ln1p : ℚ → ℚ} {debug : String → String} {spec : Json} {raw : ℚ}

namespace Numbers

theorem field_exact {name : String} {value : ℚ}
    (h : (spec.get name).bind (exact ln ln1p).asF64 = some value) :
    (exact ln ln1p).field spec name = .ok value := by
  rw [field, h]
  rfl

theorem anchor_exact {name : String} {value : ℚ}
    (h : (spec.get name).bind (exact ln ln1p).asF64 = some value) :
    (exact ln ln1p).anchor spec name = .ok value := by
  rw [anchor, h]
  rfl

theorem scale_exact (x y : ℚ) : (exact ln ln1p).scale x y = x / y := by
  by_cases hy : y = 0
  · simp [scale, hy]
  · simp [scale, hy]

theorem clamp_exact {x low high : ℚ} (h : low ≤ high) :
    (exact ln ln1p).clamp x low high = max low (min x high) := by
  simp only [clamp, exact_lt, decide_eq_true_eq]
  split_ifs with hlow hhigh
  · rw [min_eq_left (hlow.le.trans h), max_eq_left hlow.le]
  · rw [min_eq_right hhigh.le, max_eq_right h]
  · rw [min_eq_left (not_lt.mp hhigh), max_eq_right (not_lt.mp hlow)]

theorem fallingLine_exact {baseline expert : ℚ}
    (hbaseline : (spec.get "baseline").bind (exact ln ln1p).asF64 = some baseline)
    (hexpert : (spec.get "expert").bind (exact ln ln1p).asF64 = some expert) :
    (exact ln ln1p).fallingLine spec raw =
      .ok (100 * (-raw - -baseline) / (-expert - -baseline)) := by
  rw [fallingLine, field_exact hbaseline, field_exact hexpert]
  change Except.ok ((exact ln ln1p).scale _ _) = _
  rw [scale_exact]
  simp only [exact_mul, exact_ofRat, exact_sub, id_eq, neg_sub_neg]

end Numbers

theorem clamp_line {p q : ℚ} (h : p < q) (x : ℚ) :
    max 0 (min (100 * (x - p) / (q - p)) 100) = polyline [(p, 0), (q, 100)] x := by
  have hwidth : 0 < q - p := sub_pos.mpr h
  rw [polyline, lerp, mul_div_assoc, mul_comm]
  dsimp only
  rw [zero_add, sub_zero]
  split_ifs with hp hq
  · have hneg : (x - p) / (q - p) ≤ 0 := div_nonpos_of_nonpos_of_nonneg (sub_nonpos.mpr hp) hwidth.le
    exact max_eq_left ((min_le_left _ _).trans (by linarith))
  · have hpos : 0 ≤ (x - p) / (q - p) := div_nonneg (sub_nonneg.mpr (not_le.mp hp).le) hwidth.le
    have hle : (x - p) / (q - p) ≤ 1 := (div_le_one hwidth).mpr (sub_le_sub_right hq p)
    rw [min_eq_left (by linarith), max_eq_right (by linarith)]
  · have hlt : 1 < (x - p) / (q - p) :=
      (one_lt_div hwidth).mpr (sub_lt_sub_right (not_le.mp hq) p)
    rw [min_eq_right (by linarith), max_eq_right (by norm_num)]
    rfl

/-- A raw score as the curve sees it. -/
def side (minimize : Bool) (raw : ℚ) : ℚ := if minimize then -raw else raw

theorem inside_iff {minimize : Bool} {p q : ℚ} :
    (if minimize then decide (raw ≤ p) && decide (q ≤ raw) else decide (p ≤ raw) && decide (raw ≤ q))
      = true ↔ side minimize p ≤ side minimize raw ∧ side minimize raw ≤ side minimize q := by
  cases minimize <;> simp [side]

theorem fraction_side (minimize : Bool) (p q : ℚ) : (raw - p) / (q - p) =
    (side minimize raw - side minimize p) / (side minimize q - side minimize p) := by
  cases minimize with
  | false => rfl
  | true => rw [side, side, side, if_pos rfl, if_pos rfl, if_pos rfl, neg_sub_neg, neg_sub_neg,
      ← neg_sub raw, ← neg_sub q, neg_div_neg_eq]

/-- Between the first and the last point the loop finds the segment of the curve. -/
theorem alongSegments_eq {minimize : Bool} {p : ℚ × ℚ} {rest : List (ℚ × ℚ)}
    (h : Rising ((p :: rest).map (fun k => (side minimize k.1, k.2))))
    (hfirst : side minimize p.1 < side minimize raw)
    (hlast : side minimize raw ≤ side minimize ((p :: rest).getLast (List.cons_ne_nil _ _)).1) :
    (Numbers.exact ln ln1p).alongSegments minimize false raw (p :: rest) =
      polyline ((p :: rest).map (fun k => (side minimize k.1, k.2))) (side minimize raw) := by
  induction rest generalizing p with
  | nil => exact absurd hfirst hlast.not_gt
  | cons q rest ih =>
    obtain ⟨⟨hx, hy⟩, hrest⟩ := rising_cons_cons.mp h
    dsimp only at hx hy
    simp only [List.map_cons] at ih hrest ⊢
    rw [polyline, if_neg hfirst.not_ge, Numbers.alongSegments]
    simp only [Numbers.exact_le, inside_iff, hfirst.le, true_and]
    split_ifs with hq
    · rw [Numbers.clamp_exact hy, Numbers.scale_exact]
      simp only [Numbers.transformed, Bool.false_eq_true, if_false, Numbers.exact_add,
        Numbers.exact_mul, Numbers.exact_sub, fraction_side minimize p.1 q.1]
      have hlow := le_lerp (p := (side minimize p.1, p.2)) (q := (side minimize q.1, q.2)) hx hy
        hfirst.le
      have hhigh := lerp_le (p := (side minimize p.1, p.2)) (q := (side minimize q.1, q.2)) hx hy hq
      exact (congrArg _ (min_eq_left hhigh)).trans (max_eq_right hlow)
    · exact ih hrest (not_le.mp hq) (by simpa using hlast)

theorem ordered_exact {minimize : Bool} {a b c d : ℚ} (hab : side minimize a < side minimize b)
    (hbc : side minimize b < side minimize c) (hcd : side minimize c < side minimize d) :
    (Numbers.exact ln ln1p).ordered minimize [a, b, c, d] = true := by
  cases minimize with
  | false => simpa [Numbers.ordered, side] using ⟨hab, hbc, hcd⟩
  | true => simpa [Numbers.ordered] using
      ⟨neg_lt_neg_iff.mp hab, neg_lt_neg_iff.mp hbc, neg_lt_neg_iff.mp hcd⟩

theorem outside_iff {minimize : Bool} {p q : ℚ} :
    (minimize && decide (q ≤ p) || !minimize && decide (p ≤ q)) = true ↔
      side minimize p ≤ side minimize q := by
  cases minimize <;> simp [side]

theorem piecewise_exact (minimize : Bool) {a b c d : ℚ}
    (ha : (spec.get "baseline").bind (Numbers.exact ln ln1p).asF64 = some a)
    (hb : (spec.get "rank30").bind (Numbers.exact ln ln1p).asF64 = some b)
    (hc : (spec.get "rank1").bind (Numbers.exact ln ln1p).asF64 = some c)
    (hd : (spec.get "super_anchor").bind (Numbers.exact ln ln1p).asF64 = some d)
    (hab : side minimize a < side minimize b) (hbc : side minimize b < side minimize c)
    (hcd : side minimize c < side minimize d) (hpos : minimize = true → 0 < raw) :
    (Numbers.exact ln ln1p).piecewise raw spec minimize false = .ok (polyline
      [(side minimize a, 0), (side minimize b, 20), (side minimize c, 80), (side minimize d, 100)]
      (side minimize raw)) := by
  have hscale := isScale_knots hab hbc hcd
  have hguard : ¬ (minimize && decide (raw ≤ 0)) = true := by
    rw [Bool.and_eq_true, decide_eq_true_eq]
    exact fun ⟨hmin, hle⟩ => (hpos hmin).not_ge hle
  rw [Numbers.piecewise, Numbers.anchor_exact ha, Numbers.anchor_exact hb, Numbers.anchor_exact hc,
    Numbers.anchor_exact hd]
  simp only [bind, Except.bind, ordered_exact hab hbc hcd, Bool.not_true, Bool.false_and,
    Bool.or_false, Bool.false_eq_true, if_false, Numbers.exact_ofRat, id_eq, Numbers.exact_le,
    hguard, outside_iff]
  split_ifs with hfirst hlast
  · rw [polyline_of_le hfirst]
    rfl
  · have hknot := polyline_knot hscale.rising (k := (side minimize d, 100)) (by simp)
    have hge := polyline_mono hscale.rising hlast
    rw [le_antisymm (polyline_le hscale.rising hscale.last) (hknot.ge.trans hge)]
    rfl
  · exact congrArg Except.ok (alongSegments_eq hscale.rising (not_le.mp hfirst) (not_le.mp hlast).le)

theorem normalizeRaw_of_percent {percent : ℚ}
    (h : (Numbers.exact ln ln1p).percent debug spec raw = .ok percent) :
    (Numbers.exact ln ln1p).normalizeRaw debug (some spec) raw =
      .ok (max 0 (min percent 100) / 100) := by
  rw [Numbers.normalizeRaw, h]
  exact congrArg (fun score => Except.ok (score / 100)) (Numbers.clamp_exact (by norm_num))

theorem clamp_polyline {p : ℚ × ℚ} {rest : List (ℚ × ℚ)} (h : IsScale p rest) (x : ℚ) :
    max 0 (min (polyline (p :: rest) x) 100) = polyline (p :: rest) x := by
  rw [min_eq_left (polyline_le h.rising h.last),
    max_eq_right (h.first.ge.trans (le_polyline h.rising))]

/-! ## Kind by kind -/

section Kinds

variable {a b c d : ℚ}

theorem percent_linear (h : (Numbers.exact ln ln1p).Holds spec (.linear a b)) :
    (Numbers.exact ln ln1p).percent debug spec raw = .ok (100 * (raw - a) / (b - a)) := by
  obtain ⟨hkind, hfields⟩ := h
  have hlower := hfields ("lower", a) (by simp [RescaleHint.fields])
  have hupper := hfields ("upper", b) (by simp [RescaleHint.fields])
  simp only [Numbers.percent, hkind, RescaleHint.kind, Option.bind_some, Json.asStr,
    Option.getD_some, Numbers.field_exact hlower, Numbers.field_exact hupper, bind, Except.bind,
    Numbers.scale_exact]
  rfl

theorem percent_minLinear (h : (Numbers.exact ln ln1p).Holds spec (.minLinear a b)) :
    (Numbers.exact ln ln1p).percent debug spec raw = .ok (100 * (-raw - -a) / (-b - -a)) := by
  obtain ⟨hkind, hfields⟩ := h
  have hbaseline := hfields ("baseline", a) (by simp [RescaleHint.fields])
  have hexpert := hfields ("expert", b) (by simp [RescaleHint.fields])
  simp only [Numbers.percent, hkind, RescaleHint.kind, Option.bind_some, Json.asStr,
    Option.getD_some, Numbers.fallingLine_exact hbaseline hexpert]

theorem percent_minLinearPositive
    (h : (Numbers.exact ln ln1p).Holds spec (.minLinearPositive a b)) (hraw : 0 < raw) :
    (Numbers.exact ln ln1p).percent debug spec raw = .ok (100 * (-raw - -a) / (-b - -a)) := by
  obtain ⟨hkind, hfields⟩ := h
  have hbaseline := hfields ("baseline", a) (by simp [RescaleHint.fields])
  have hexpert := hfields ("expert", b) (by simp [RescaleHint.fields])
  simp only [Numbers.percent, hkind, RescaleHint.kind, Option.bind_some, Json.asStr,
    Option.getD_some, Numbers.fallingLine_exact hbaseline hexpert, Numbers.exact_le,
    Numbers.exact_ofRat, id_eq, hraw.not_ge, decide_false, Bool.false_eq_true, if_false]

theorem percent_minInverseAnchor
    (h : (Numbers.exact ln ln1p).Holds spec (.minInverseAnchor a b)) (hraw : 0 < raw) :
    (Numbers.exact ln ln1p).percent debug spec raw = .ok (if a ≤ 0 then 0 else b * a / raw) := by
  obtain ⟨hkind, hfields⟩ := h
  have hanchorRaw := hfields ("anchor_raw", a) (by simp [RescaleHint.fields])
  have hanchorScore := hfields ("anchor_score", b) (by simp [RescaleHint.fields])
  simp only [Numbers.percent, hkind, RescaleHint.kind, Option.bind_some, Json.asStr,
    Option.getD_some, Numbers.field_exact hanchorRaw, Numbers.field_exact hanchorScore, bind,
    Except.bind, Numbers.exact_le, Numbers.exact_ofRat, id_eq, hraw.not_ge, decide_false,
    Bool.false_or, decide_eq_true_eq]
  split_ifs <;> rfl

theorem percent_piecewiseMax (h : (Numbers.exact ln ln1p).Holds spec (.piecewiseMax a c b d))
    (hab : a < b) (hbc : b < c) (hcd : c < d) :
    (Numbers.exact ln ln1p).percent debug spec raw = .ok (polyline (knots a c b d) raw) := by
  obtain ⟨hkind, hfields⟩ := h
  simp only [Numbers.percent, hkind, RescaleHint.kind, Option.bind_some, Json.asStr,
    Option.getD_some]
  apply piecewise_exact false
  · exact hfields ("baseline", a) (by simp [RescaleHint.fields])
  · exact hfields ("rank30", b) (by simp [RescaleHint.fields])
  · exact hfields ("rank1", c) (by simp [RescaleHint.fields])
  · exact hfields ("super_anchor", d) (by simp [RescaleHint.fields])
  · exact hab
  · exact hbc
  · exact hcd
  · exact fun h => absurd h Bool.false_ne_true

theorem percent_piecewiseMin (h : (Numbers.exact ln ln1p).Holds spec (.piecewiseMin a c b d))
    (hab : b < a) (hbc : c < b) (hcd : d < c) (hraw : 0 < raw) :
    (Numbers.exact ln ln1p).percent debug spec raw =
      .ok (polyline (mirror (knots a c b d)) (-raw)) := by
  obtain ⟨hkind, hfields⟩ := h
  simp only [Numbers.percent, hkind, RescaleHint.kind, Option.bind_some, Json.asStr,
    Option.getD_some]
  apply piecewise_exact true
  · exact hfields ("baseline", a) (by simp [RescaleHint.fields])
  · exact hfields ("rank30", b) (by simp [RescaleHint.fields])
  · exact hfields ("rank1", c) (by simp [RescaleHint.fields])
  · exact hfields ("super_anchor", d) (by simp [RescaleHint.fields])
  · exact neg_lt_neg hab
  · exact neg_lt_neg hbc
  · exact neg_lt_neg hcd
  · exact fun _ => hraw

end Kinds

/-- The normalized score is the height of the curve. -/
theorem normalizeRaw_eq {spec : Option Json} {hint : Option (RescaleHint ℚ)}
    (hholds : Option.Rel (Numbers.exact ln ln1p).Holds spec hint) (hordered : Ordered hint)
    (hraw : Admits hint raw) :
    (Numbers.exact ln ln1p).normalizeRaw debug spec raw = .ok (curve hint raw / 100) := by
  cases hholds with
  | none =>
    have hline := clamp_line (show (0 : ℚ) < 100 by norm_num) raw
    rw [sub_zero, sub_zero, mul_div_cancel_left₀ _ (by norm_num)] at hline
    refine congrArg (fun score => Except.ok (score / 100)) ?_
    exact (Numbers.clamp_exact (by norm_num)).trans hline
  | some hspec =>
    rename_i spec hint
    cases hint with
    | linear lower upper =>
      rw [normalizeRaw_of_percent (percent_linear hspec), clamp_line hordered]
      rfl
    | minLinear baseline expert =>
      rw [normalizeRaw_of_percent (percent_minLinear hspec), clamp_line (neg_lt_neg hordered)]
      rfl
    | minLinearPositive baseline expert =>
      rw [normalizeRaw_of_percent (percent_minLinearPositive hspec hraw),
        clamp_line (neg_lt_neg hordered)]
      rfl
    | minInverseAnchor anchorRaw anchorScore =>
      rw [normalizeRaw_of_percent (percent_minInverseAnchor hspec hraw), curve]
      have hbounds := (curve_inverse_bounds (a := anchorRaw) hordered hraw).1
      rw [curve] at hbounds
      split_ifs at hbounds ⊢ with hanchor
      · norm_num
      · rw [max_eq_right hbounds]
    | piecewiseMax baseline rank1 rank30 superAnchor =>
      obtain ⟨hab, hbc, hcd⟩ := hordered
      rw [normalizeRaw_of_percent (percent_piecewiseMax hspec hab hbc hcd), knots,
        clamp_polyline (isScale_knots hab hbc hcd)]
      rfl
    | piecewiseMin baseline rank1 rank30 superAnchor =>
      obtain ⟨hab, hbc, hcd⟩ := hordered
      have hscale := isScale_knots (neg_lt_neg hab) (neg_lt_neg hbc) (neg_lt_neg hcd)
      rw [normalizeRaw_of_percent (percent_piecewiseMin hspec hab hbc hcd hraw)]
      exact congrArg (fun score => Except.ok (score / 100)) (clamp_polyline hscale (-raw))
    | compressionRatioCroppedGuarded | logAnchor | logMax | piecewiseLogMin | log1pMax | logMin =>
      exact absurd hordered id

/-- A score lies between 0 and 1, follows the direction of its kind, and is the ratio of the
anchor at each anchor. -/
theorem normalizeRaw_score (ln ln1p : ℚ → ℚ) (debug : String → String) {spec : Option Json}
    {hint : Option (RescaleHint ℚ)} (hholds : Option.Rel (Numbers.exact ln ln1p).Holds spec hint)
    (hordered : Ordered hint) :
    (∀ raw, Admits hint raw → ∃ score,
      (Numbers.exact ln ln1p).normalizeRaw debug spec raw = .ok score ∧ 0 ≤ score ∧ score ≤ 1) ∧
    (∀ raw raw', Admits hint raw → Admits hint raw' → raw ≤ raw' → ∃ score score',
      (Numbers.exact ln ln1p).normalizeRaw debug spec raw = .ok score ∧
      (Numbers.exact ln ln1p).normalizeRaw debug spec raw' = .ok score' ∧
      if minimizes hint then score' ≤ score else score ≤ score') ∧
    (∀ anchor ∈ anchors hint, Admits hint anchor.1 →
      (Numbers.exact ln ln1p).normalizeRaw debug spec anchor.1 = .ok anchor.2) := by
  refine ⟨fun raw hraw => ?_, fun raw raw' hraw hraw' h => ?_, fun anchor hanchor hraw => ?_⟩
  · obtain ⟨hlow, hhigh⟩ := curve_bounds hordered hraw
    exact ⟨_, normalizeRaw_eq hholds hordered hraw, by linarith, by linarith⟩
  · have hmono := curve_monotone hordered hraw h
    refine ⟨_, _, normalizeRaw_eq hholds hordered hraw, normalizeRaw_eq hholds hordered hraw', ?_⟩
    split_ifs at hmono ⊢
    · linarith
    · linarith
  · rw [normalizeRaw_eq hholds hordered hraw, curve_anchors hordered hanchor,
      mul_div_cancel_left₀ _ (by norm_num)]

end Exact

def sampleRescale : Json := .object [("baseline", .number (.float "10.0")),
  ("kind", .string "piecewise_min"), ("rank1", .number (.float "2.5")),
  ("rank30", .number (.float "5.0")), ("super_anchor", .number (.float "1.0"))]

theorem holds_sampleRescale (ln ln1p : ℚ → ℚ) :
    (Numbers.exact ln ln1p).Holds sampleRescale (.piecewiseMin 10 (5 / 2) 5 1) := by
  refine ⟨rfl, fun field hfield => ?_⟩
  simp only [RescaleHint.fields, List.mem_cons, List.not_mem_nil, or_false] at hfield
  have hparse : ∀ text value, Numbers.parseExact text = some value →
      (Numbers.exact ln ln1p).asF64 (.number (.float text)) = some value := fun _ _ h => h
  rcases hfield with rfl | rfl | rfl | rfl
  · exact hparse "10.0" 10 (by decide +kernel)
  · exact hparse "2.5" (5 / 2) (by decide +kernel)
  · exact hparse "5.0" 5 (by decide +kernel)
  · exact hparse "1.0" 1 (by decide +kernel)

theorem normalizeRaw_score_sample :
    (Numbers.exact id id).normalizeRaw id (some sampleRescale) 5 = .ok (1 / 5) ∧
    ∃ score score', (Numbers.exact id id).normalizeRaw id (some sampleRescale) 2 = .ok score ∧
      (Numbers.exact id id).normalizeRaw id (some sampleRescale) 3 = .ok score' ∧
      score' ≤ score := by
  have h := normalizeRaw_score id id id (.some (holds_sampleRescale id id))
    ⟨by norm_num, by norm_num, by norm_num⟩
  exact ⟨h.2.2 (5, 1 / 5) (by simp [anchors]) (by norm_num [Admits]),
    h.2.1 2 3 (by norm_num [Admits]) (by norm_num [Admits]) (by norm_num)⟩

end A3sBench.LegacyJudge
