import A3sBench.CodexResume
import A3sBench.Float64

/-!
# What `parse_usage` accepts

The order of the turns is a regular language over the turn events, and the usage
is that of the last event which has one.
-/

namespace A3sBench.CodexEvents

/-- The events that open and close turns. -/
inductive TurnEvent where
  | started
  | completed
  | failed
  deriving DecidableEq

def turnEvent? (event : Json) : Option TurnEvent :=
  if eventType event = some "turn.started" then some .started
  else if eventType event = some "turn.completed" then some .completed
  else if eventType event = some "turn.failed" then some .failed
  else none

def turnEvents (events : List Json) : List TurnEvent := events.filterMap turnEvent?

/-- A whole turn. -/
def turn (completed : Bool) : List TurnEvent :=
  [.started, if completed then .completed else .failed]

/-- `(started (completed | failed))* started completed` -/
def WellFormedTurns (turns : List TurnEvent) : Prop :=
  ∃ earlier : List Bool, turns = earlier.flatMap turn ++ turn true

/-- An unsigned integer of 64 bits. -/
def IsCount (value : Json) : Prop := ∃ n : UInt64, value = .number (.posInt n)

/-- A `usage` member whose counts can be read. -/
structure Counted (usage : Json) : Prop where
  input : ∃ value, usage.get "input_tokens" = some value ∧ IsCount value
  output : ∃ value, usage.get "output_tokens" = some value ∧ IsCount value
  cached : ∀ value, usage.get "cached_input_tokens" = some value → IsCount value

structure Accepted (events : List Json) : Prop where
  thread : ∃ e ∈ events, eventType e = some "thread.started"
  turns : WellFormedTurns (turnEvents events)
  usage : ∀ e ∈ events, ∀ value, e.get "usage" = some value → Counted value

/-- The usage of the last event that has one. -/
def Returned (events : List Json) (usage : Option ModelExecution) : Prop :=
  ((∀ e ∈ events, e.get "usage" = none) ∧ usage = none) ∨
    ∃ before e after value execution, events = before ++ e :: after ∧
      e.get "usage" = some value ∧ (∀ e ∈ after, e.get "usage" = none) ∧
      readUsage value ((before ++ [e]).countP isToolCall) = .ok execution ∧ usage = some execution

/-- The lines that count, as events. -/
def Reads (fromStr : String → Result Json) (text : String) (events : List Json) : Prop :=
  List.Forall₂ (fun line event => fromStr line = .ok event)
    ((Text.lines text).filter (fun line => !Text.isBlank line)) events

/-! ## The order of the turns -/

/-- `onType` on a turn event. -/
def TurnOrder.onTurn (order : TurnOrder) : TurnEvent → TurnOrder
  | .started =>
    { order with
      malformedTurnOrder := order.malformedTurnOrder || order.activeTurn
      sawTurnStarted := true
      activeTurn := true
      terminalTurn := none }
  | .completed => order.closeTurn true
  | .failed => order.closeTurn false

/-- What `finishScan` asks of the turns. -/
def TurnOrder.EndsWell (order : TurnOrder) : Prop := ¬ order.Dirty ∧ order.terminalTurn = some true

theorem onType_thread (order : TurnOrder) (type : Option String) :
    (order.onType type).sawThreadStarted = true ↔
      order.sawThreadStarted = true ∨ type = some "thread.started" := by
  unfold TurnOrder.onType
  split_ifs with hthread hstarted hcompleted hfailed
  · simp [hthread]
  · simp [hstarted]
  · simp [hcompleted, TurnOrder.closeTurn]
  · simp [hfailed, TurnOrder.closeTurn]
  · simp [hthread]

/-- The flags that follow the turns. -/
def TurnOrder.turns (order : TurnOrder) : TurnOrder := { order with sawThreadStarted := false }

theorem turns_onType (order : TurnOrder) (event : Json) :
    (order.onType (eventType event)).turns =
      (turnEvent? event).toList.foldl TurnOrder.onTurn order.turns := by
  unfold TurnOrder.onType turnEvent?
  split_ifs with hthread hstarted hcompleted hfailed hstarted hcompleted hfailed
  · simp [hthread] at hstarted
  · simp [hthread] at hcompleted
  · simp [hthread] at hfailed
  all_goals rfl

theorem run_thread (order : TurnOrder) (events : List Json) :
    (order.run events).sawThreadStarted = true ↔
      order.sawThreadStarted = true ∨ ∃ e ∈ events, eventType e = some "thread.started" := by
  induction events generalizing order with
  | nil => simp [TurnOrder.run]
  | cons e events ih =>
    have hrun : order.run (e :: events) = (order.onType (eventType e)).run events := rfl
    rw [hrun, ih, onType_thread, List.exists_mem_cons_iff, or_assoc]

theorem turns_run (order : TurnOrder) (events : List Json) :
    (order.run events).turns = (turnEvents events).foldl TurnOrder.onTurn order.turns := by
  induction events generalizing order with
  | nil => rfl
  | cons e events ih =>
    have hrun : order.run (e :: events) = (order.onType (eventType e)).run events := rfl
    rw [hrun, ih, turns_onType, ← List.foldl_append]
    congr 1
    rw [turnEvents, turnEvents, List.filterMap_cons]
    cases turnEvent? e <;> rfl

theorem foldl_onTurn_malformed {order : TurnOrder} (h : order.malformedTurnOrder = true)
    (turns : List TurnEvent) : (turns.foldl TurnOrder.onTurn order).malformedTurnOrder = true := by
  induction turns generalizing order with
  | nil => exact h
  | cons t turns ih =>
    refine ih ?_
    cases t <;> simp [TurnOrder.onTurn, TurnOrder.closeTurn, h]

theorem wellFormedTurns_cons_cons {first second : TurnEvent} {rest : List TurnEvent} :
    WellFormedTurns (first :: second :: rest) ↔ ∃ completed, [first, second] = turn completed ∧
      (completed = true ∧ rest = [] ∨ WellFormedTurns rest) := by
  constructor
  · rintro ⟨earlier, hturns⟩
    cases earlier with
    | nil =>
      obtain ⟨rfl, hrest⟩ := List.cons.inj hturns
      obtain ⟨rfl, rfl⟩ := List.cons.inj hrest
      exact ⟨true, rfl, .inl ⟨rfl, rfl⟩⟩
    | cons completed earlier =>
      obtain ⟨rfl, hrest⟩ := List.cons.inj hturns
      obtain ⟨rfl, rfl⟩ := List.cons.inj hrest
      exact ⟨completed, rfl, .inr ⟨earlier, rfl⟩⟩
  · rintro ⟨completed, hturn, ⟨rfl, rfl⟩ | ⟨earlier, rfl⟩⟩
    · exact ⟨[], hturn⟩
    · refine ⟨completed :: earlier, ?_⟩
      rw [List.flatMap_cons, ← hturn]
      rfl

theorem not_wellFormedTurns_singleton (t : TurnEvent) : ¬ WellFormedTurns [t] := by
  rintro ⟨earlier, hturns⟩
  have hlength := congrArg List.length hturns
  rw [List.length_append] at hlength
  simp [turn] at hlength

/-- Turn by turn: between two turns the order is clean, and only the last turn tells how the
stream ends. -/
theorem endsWell_foldl_iff (turns : List TurnEvent) {order : TurnOrder}
    (hactive : order.activeTurn = false) (hclean : order.malformedTurnOrder = false) :
    (turns.foldl TurnOrder.onTurn order).EndsWell ↔
      order.terminalTurn = some true ∧ turns = [] ∨ WellFormedTurns turns := by
  have hnot : ∀ {order : TurnOrder} (turns : List TurnEvent), order.malformedTurnOrder = true →
      ¬ (turns.foldl TurnOrder.onTurn order).EndsWell :=
    fun turns h hends => hends.1 (.inr (foldl_onTurn_malformed h turns))
  match turns with
  | [] =>
    have hnil : ¬ WellFormedTurns [] := by
      rintro ⟨earlier, hturns⟩
      simp [turn] at hturns
    simp [TurnOrder.EndsWell, TurnOrder.Dirty, hactive, hclean, hnil]
  | [t] =>
    simp only [List.cons_ne_nil, and_false, not_wellFormedTurns_singleton, or_false, iff_false]
    cases t with
    | started => exact fun hends => hends.1 (.inl rfl)
    | completed => exact @hnot (order.closeTurn true) [] (by simp [TurnOrder.closeTurn, hactive])
    | failed => exact @hnot (order.closeTurn false) [] (by simp [TurnOrder.closeTurn, hactive])
  | first :: second :: rest =>
    simp only [List.cons_ne_nil, and_false, false_or, wellFormedTurns_cons_cons]
    cases first with
    | completed =>
      have hclosed : (order.closeTurn true).malformedTurnOrder = true := by
        simp [TurnOrder.closeTurn, hactive]
      refine ⟨fun hends => absurd hends (hnot (second :: rest) hclosed), ?_⟩
      rintro ⟨completed, hturn, -⟩
      cases hturn
    | failed =>
      have hclosed : (order.closeTurn false).malformedTurnOrder = true := by
        simp [TurnOrder.closeTurn, hactive]
      refine ⟨fun hends => absurd hends (hnot (second :: rest) hclosed), ?_⟩
      rintro ⟨completed, hturn, -⟩
      cases hturn
    | started =>
      cases second with
      | started =>
        refine iff_of_false (hnot rest (by simp [TurnOrder.onTurn])) ?_
        rintro ⟨completed, hturn, -⟩
        cases completed <;> cases hturn
      | completed =>
        refine (endsWell_foldl_iff rest rfl ?_).trans ?_
        · simp [TurnOrder.onTurn, TurnOrder.closeTurn, hactive, hclean]
        · refine ⟨fun h => ⟨true, rfl, h.imp (fun hnil => ⟨rfl, hnil.2⟩) id⟩, ?_⟩
          rintro ⟨completed, hturn, h⟩
          cases completed with
          | true => exact h.imp (fun hnil => ⟨rfl, hnil.2⟩) id
          | false => cases hturn
      | failed =>
        refine (endsWell_foldl_iff rest rfl ?_).trans ?_
        · simp [TurnOrder.onTurn, TurnOrder.closeTurn, hactive, hclean]
        · constructor
          · rintro (⟨hterminal, -⟩ | h)
            · cases hterminal
            · exact ⟨false, rfl, .inr h⟩
          · rintro ⟨completed, hturn, h⟩
            cases completed with
            | true => cases hturn
            | false => exact .inr (h.resolve_left fun hnil => Bool.false_ne_true hnil.1)

/-! ## The usage -/

theorem optionalUsizeField_ok_iff {value : Json} {name : String} :
    (∃ found, optionalUsizeField value name = .ok found) ↔
      ∀ v, value.get name = some v → IsCount v := by
  unfold optionalUsizeField IsCount
  cases hget : value.get name with
  | none => simp
  | some v =>
    cases v with
    | number n => cases n <;> simp [Json.asU64]
    | null | bool | string | array | object => simp [Json.asU64]

theorem usizeField_ok_iff {value : Json} {name : String} :
    (∃ count, usizeField value name = .ok count) ↔
      ∃ v, value.get name = some v ∧ IsCount v := by
  simp only [usizeField, optionalUsizeField, IsCount, Result.bind_ok_iff, Result.okOr_ok_iff]
  cases hget : value.get name with
  | none => simp
  | some v =>
    cases v with
    | number n => cases n <;> simp [Json.asU64]
    | null | bool | string | array | object => simp [Json.asU64]

theorem readUsage_ok_iff {value : Json} {toolCallsCount : Nat} :
    (∃ usage, readUsage value toolCallsCount = .ok usage) ↔ Counted value := by
  simp only [readUsage, Result.bind_ok_iff, Result.pure_ok_iff]
  constructor
  · rintro ⟨_, prompt, hprompt, completion, hcompletion, cached, hcached, -⟩
    exact ⟨usizeField_ok_iff.mp ⟨prompt, hprompt⟩, usizeField_ok_iff.mp ⟨completion, hcompletion⟩,
      optionalUsizeField_ok_iff.mp ⟨cached, hcached⟩⟩
  · rintro ⟨hinput, houtput, hcached⟩
    obtain ⟨prompt, hprompt⟩ := usizeField_ok_iff.mpr hinput
    obtain ⟨completion, hcompletion⟩ := usizeField_ok_iff.mpr houtput
    obtain ⟨cached, hcached⟩ := optionalUsizeField_ok_iff.mpr hcached
    exact ⟨_, prompt, hprompt, completion, hcompletion, cached, hcached, rfl⟩

/-- The usage and the count of tool calls after a fold over the events. -/
theorem foldlM_scanEvent_usage {events : List Json} {scan : Scan}
    (h : events.foldlM scanEvent Scan.start = .ok scan) :
    scan.toolCallsCount = events.countP isToolCall ∧ Returned events scan.usage := by
  induction events using List.reverseRecOn generalizing scan with
  | nil =>
    obtain rfl := Except.ok.inj h
    exact ⟨rfl, .inl ⟨fun e he => absurd he List.not_mem_nil, rfl⟩⟩
  | append_singleton events e ih =>
    rw [List.foldlM_append] at h
    obtain ⟨before, hbefore, hlast⟩ := Result.bind_ok_iff.mp h
    obtain ⟨hcount, hreturned⟩ := ih hbefore
    have hlast : scanEvent before e = .ok scan := by simpa using hlast
    have htools : (if isToolCall e then before.toolCallsCount + 1 else before.toolCallsCount) =
        (events ++ [e]).countP isToolCall := by
      rw [hcount, List.countP_append, List.countP_singleton]
      split_ifs <;> rfl
    unfold scanEvent at hlast
    rw [htools] at hlast
    cases hvalue : e.get "usage" with
    | none =>
      simp only [hvalue, Result.pure_ok_iff] at hlast
      subst hlast
      refine ⟨rfl, ?_⟩
      obtain ⟨hnone, husage⟩ | ⟨front, e', back, value, execution, hevents, hrest⟩ := hreturned
      · exact .inl ⟨List.forall_mem_append.mpr ⟨hnone, List.forall_mem_singleton.mpr hvalue⟩, husage⟩
      · obtain ⟨hget, hback, hread, husage⟩ := hrest
        refine .inr ⟨front, e', back ++ [e], value, execution, ?_, hget, ?_, hread, husage⟩
        · rw [hevents, List.append_assoc]
          rfl
        · exact List.forall_mem_append.mpr ⟨hback, List.forall_mem_singleton.mpr hvalue⟩
    | some value =>
      simp only [hvalue, Result.bind_ok_iff, Result.pure_ok_iff] at hlast
      obtain ⟨execution, hexecution, rfl⟩ := hlast
      exact ⟨rfl, .inr ⟨events, e, [], value, execution, rfl, hvalue,
        fun e he => absurd he List.not_mem_nil, hexecution, rfl⟩⟩

theorem returned_concat {events : List Json} {e : Json} {usage : Option ModelExecution}
    (h : Returned (events ++ [e]) usage) :
    e.get "usage" = none ∧ Returned events usage ∨
      ∃ value execution, e.get "usage" = some value ∧
        readUsage value ((events ++ [e]).countP isToolCall) = .ok execution ∧
        usage = some execution := by
  obtain ⟨hnone, husage⟩ | ⟨before, e', after, value, execution, hevents, hget, hafter, hread⟩ := h
  · obtain ⟨hevents, he⟩ := List.forall_mem_append.mp hnone
    exact .inl ⟨he e (List.mem_singleton_self e), .inl ⟨hevents, husage⟩⟩
  · obtain rfl | ⟨after, last, rfl⟩ := List.eq_nil_or_concat after
    · obtain ⟨rfl, hlast⟩ := List.append_inj' hevents rfl
      obtain rfl := List.singleton_inj.mp hlast
      exact .inr ⟨value, execution, hget, hread⟩
    · rw [List.concat_eq_append] at hevents hafter
      rw [← List.cons_append, ← List.append_assoc] at hevents
      obtain ⟨rfl, hlast⟩ := List.append_inj' hevents rfl
      obtain rfl := List.singleton_inj.mp hlast
      obtain ⟨hafter, hnone⟩ := List.forall_mem_append.mp hafter
      exact .inl ⟨hnone _ (List.mem_singleton_self _),
        .inr ⟨before, e', after, value, execution, rfl, hget, hafter, hread⟩⟩

theorem Returned.unique {events : List Json} {usage usage' : Option ModelExecution}
    (h : Returned events usage) (h' : Returned events usage') : usage = usage' := by
  induction events using List.reverseRecOn with
  | nil =>
    have hnil : ∀ {usage}, Returned [] usage → usage = none := by
      rintro usage (⟨-, husage⟩ | ⟨before, e, after, _, _, hevents, -⟩)
      · exact husage
      · cases before <;> cases hevents
    rw [hnil h, hnil h']
  | append_singleton events e ih =>
    obtain ⟨hnone, h⟩ | ⟨value, execution, hget, hread, rfl⟩ := returned_concat h
    · obtain ⟨-, h'⟩ | ⟨value', _, hget', -, -⟩ := returned_concat h'
      · exact ih h h'
      · rw [hnone] at hget'
        cases hget'
    · obtain ⟨hnone, -⟩ | ⟨value', execution', hget', hread', rfl⟩ := returned_concat h'
      · rw [hnone] at hget
        cases hget
      · obtain rfl := Option.some.inj (hget.symm.trans hget')
        rw [Except.ok.inj (hread.symm.trans hread')]

/-! ## The parser -/

theorem reads_of_foldlM {fromStr : String → Result Json} {lines : List String} {scan scan' : Scan}
    (h : lines.foldlM (fun scan line => do
      let event ← context "Codex emitted invalid JSONL" (fromStr line)
      scanEvent scan event) scan = .ok scan') :
    ∃ events, List.Forall₂ (fun line event => fromStr line = .ok event) lines events ∧
      events.foldlM scanEvent scan = .ok scan' := by
  induction lines generalizing scan with
  | nil => exact ⟨[], .nil, h⟩
  | cons line lines ih =>
    rw [List.foldlM_cons] at h
    obtain ⟨scan₁, hfirst, hrest⟩ := Result.bind_ok_iff.mp h
    obtain ⟨event, hevent, hscan⟩ := Result.bind_ok_iff.mp hfirst
    obtain ⟨events, hevents, hfold⟩ := ih hrest
    refine ⟨event :: events, .cons (Result.context_ok_iff.mp hevent) hevents, ?_⟩
    rw [List.foldlM_cons]
    exact Result.bind_ok_iff.mpr ⟨scan₁, hscan, hfold⟩

theorem foldlM_of_reads {fromStr : String → Result Json} {lines : List String} {events : List Json}
    (h : List.Forall₂ (fun line event => fromStr line = .ok event) lines events) (scan : Scan) :
    lines.foldlM (fun scan line => do
      let event ← context "Codex emitted invalid JSONL" (fromStr line)
      scanEvent scan event) scan = events.foldlM scanEvent scan := by
  induction h generalizing scan with
  | nil => rfl
  | cons hevent _ ih =>
    simp only [List.foldlM_cons, hevent, context]
    exact congrArg _ (funext ih)

theorem finishScan_eq_ok_iff {scan : Scan} {usage : Option ModelExecution} :
    finishScan scan = .ok usage ↔
      (scan.sawThreadStarted = true ∧ scan.sawTurnStarted = true ∧ scan.EndsWell) ∧
        scan.usage = usage := by
  simp only [finishScan, Result.bind_ok_iff, Result.exists_unit_iff, Result.ensure_ok_iff,
    Result.pure_ok_iff, TurnOrder.EndsWell, TurnOrder.Dirty, not_or, Bool.not_eq_true]
  tauto

theorem foldl_onTurn_saw {order : TurnOrder} {turns : List TurnEvent}
    (h : order.sawTurnStarted = true ∨ .started ∈ turns) :
    (turns.foldl TurnOrder.onTurn order).sawTurnStarted = true := by
  induction turns generalizing order with
  | nil => exact h.resolve_right List.not_mem_nil
  | cons t turns ih =>
    refine ih ?_
    obtain h | h := h
    · cases t <;> simp [TurnOrder.onTurn, TurnOrder.closeTurn, h]
    · obtain rfl | h := List.mem_cons.mp h
      · exact .inl rfl
      · exact .inr h

theorem WellFormedTurns.started_mem {turns : List TurnEvent} (h : WellFormedTurns turns) :
    .started ∈ turns := by
  obtain ⟨earlier, rfl⟩ := h
  exact List.mem_append_right _ List.mem_cons_self

theorem finishScan_run_iff {events : List Json} {scan : Scan}
    (h : scan.toTurnOrder = TurnOrder.run Scan.start.toTurnOrder events) :
    (scan.sawThreadStarted = true ∧ scan.sawTurnStarted = true ∧ scan.EndsWell) ↔
      (∃ e ∈ events, eventType e = some "thread.started") ∧ WellFormedTurns (turnEvents events) := by
  have hthread : scan.sawThreadStarted = true ↔
      ∃ e ∈ events, eventType e = some "thread.started" := by
    rw [h, run_thread]
    simp [Scan.start]
  have hturns : scan.toTurnOrder.turns =
      (turnEvents events).foldl TurnOrder.onTurn Scan.start.toTurnOrder.turns := by
    rw [h, turns_run]
  have hends : scan.EndsWell ↔ WellFormedTurns (turnEvents events) := by
    have hfold : ((turnEvents events).foldl TurnOrder.onTurn Scan.start.toTurnOrder.turns).EndsWell ↔
        _ := endsWell_foldl_iff (turnEvents events) rfl rfl
    rw [← hturns] at hfold
    refine (Iff.rfl : scan.EndsWell ↔ scan.toTurnOrder.turns.EndsWell).trans (hfold.trans ?_)
    simp [TurnOrder.turns, Scan.start]
  rw [hthread, hends]
  refine and_congr_right fun _ => ⟨And.right, fun hwell => ⟨?_, hwell⟩⟩
  have hsaw : scan.toTurnOrder.turns.sawTurnStarted = true := by
    rw [hturns]
    exact foldl_onTurn_saw (.inr hwell.started_mem)
  exact hsaw

section Samples

private def historyThread : String := "\x7b\"type\":\"thread.started\"\x7d"

private def historyTurn : String := "\x7b\"type\":\"turn.started\"\x7d"

private def historyLarge : String :=
  "\x7b\"type\":\"turn.completed\",\"usage\":\x7b\"input_tokens\":18446744073709551616,\"output_tokens\":1\x7d\x7d"

/-- `2 ^ 64` is read as a float. -/
private def largeUsage : Json :=
  .object [("input_tokens", .number (.float "1.8446744073709552e19")),
    ("output_tokens", .number (.posInt 1))]

private def largeEvents : List Json :=
  [.object [("type", .string "thread.started")], .object [("type", .string "turn.started")],
    .object [("type", .string "turn.completed"), ("usage", largeUsage)]]

/-- `serde_json::from_str` on the three lines. -/
private def readHistory (line : String) : Result Json :=
  if line = historyThread then .ok (.object [("type", .string "thread.started")])
  else if line = historyTurn then .ok (.object [("type", .string "turn.started")])
  else if line = historyLarge then
    .ok (.object [("type", .string "turn.completed"), ("usage", largeUsage)])
  else .error "expected value at line 1 column 1"

end Samples

end A3sBench.CodexEvents
