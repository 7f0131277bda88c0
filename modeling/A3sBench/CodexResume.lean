import A3sBench.CodexEvents

/-!
# Resumed Codex runs

Every attempt writes a stream of one turn, or as much of it as it lives to
write. The flags of `parse_usage` do not tell attempts apart, so a turn that one
attempt leaves open is still open when the next one starts its own.
-/

namespace A3sBench.CodexEvents

/-- The types that move the order of the turns. -/
def turnTypes : List String := ["thread.started", "turn.started", "turn.completed", "turn.failed"]

/-- The events of an attempt that lives to its end. -/
structure TurnStream where
  thread : Json
  turn : Json
  items : List Json
  terminal : Option Json
  thread_type : eventType thread = some "thread.started"
  turn_type : eventType turn = some "turn.started"
  items_type : ∀ e ∈ items, ∀ type ∈ turnTypes, eventType e ≠ some type
  terminal_type : ∀ e ∈ terminal,
    eventType e = some "turn.completed" ∨ eventType e = some "turn.failed"

def TurnStream.events (s : TurnStream) : List Json :=
  s.thread :: s.turn :: (s.items ++ s.terminal.toList)

/-- The events in the lines of an attempt. -/
def eventsOf (fromStr : String → Result Json) (a : Attempt) : List Json :=
  a.lines.filterMap (fun line => (fromStr line).toOption)

/-- The lines of an attempt are events, each on a line of its own. -/
def Written (fromStr : String → Result Json) (a : Attempt) : Prop :=
  ∀ line ∈ a.lines, Text.IsLine line ∧ Text.isBlank line = false ∧ ∃ e, fromStr line = .ok e

/-- An attempt may stop after any line of its stream. -/
def Behaves (fromStr : String → Result Json) (a : Attempt) : Prop :=
  Written fromStr a ∧ ∃ s : TurnStream, eventsOf fromStr a <+: s.events

/-- The `usage` member of an event, if it has one, can be read. -/
def WellFormedUsage (event : Json) : Prop :=
  ∀ value, event.get "usage" = some value → ∃ usage, readUsage value 0 = .ok usage

/-- The attempt completes its turn and exits with status 0. -/
def EndsWell (fromStr : String → Result Json) (a : Attempt) : Prop :=
  Written fromStr a ∧ a.status = 0 ∧ ∃ s : TurnStream, eventsOf fromStr a = s.events ∧
    (∃ e ∈ s.terminal, eventType e = some "turn.completed") ∧ ∀ e ∈ s.events, WellFormedUsage e

def isTerminal (event : Json) : Bool :=
  eventType event = some "turn.completed" || eventType event = some "turn.failed"

/-- The attempt stopped inside its turn. -/
def CutInTurn (fromStr : String → Result Json) (a : Attempt) : Prop :=
  (∃ e ∈ eventsOf fromStr a, eventType e = some "turn.started") ∧
    ∀ e ∈ eventsOf fromStr a, isTerminal e = false

theorem readUsage_count {value : Json} {n : Nat} :
    (∃ usage, readUsage value n = .ok usage) ↔ ∃ usage, readUsage value 0 = .ok usage := by
  simp only [readUsage, Result.bind_ok_iff, Result.pure_ok_iff]
  constructor
  · rintro ⟨_, p, hp, c, hc, r, hr, rfl⟩
    exact ⟨_, p, hp, c, hc, r, hr, rfl⟩
  · rintro ⟨_, p, hp, c, hc, r, hr, rfl⟩
    exact ⟨_, p, hp, c, hc, r, hr, rfl⟩

theorem scanEvent_order {scan scan' : Scan} {event : Json} (h : scanEvent scan event = .ok scan') :
    scan'.toTurnOrder = scan.toTurnOrder.onType (eventType event) := by
  unfold scanEvent at h
  cases hvalue : event.get "usage" with
  | none =>
    simp only [hvalue, Result.pure_ok_iff] at h
    rw [← h]
  | some value =>
    simp only [hvalue, Result.bind_ok_iff, Result.pure_ok_iff] at h
    obtain ⟨usage, _, rfl⟩ := h
    rfl

theorem scanEvent_ok_iff {scan : Scan} {event : Json} :
    (∃ scan', scanEvent scan event = .ok scan') ↔ WellFormedUsage event := by
  unfold scanEvent WellFormedUsage
  cases hvalue : event.get "usage" with
  | none => simp
  | some value =>
    simp only [Result.bind_ok_iff, Result.pure_ok_iff, Option.some.injEq, forall_eq']
    rw [← readUsage_count]
    constructor
    · rintro ⟨_, usage, husage, _⟩
      exact ⟨usage, husage⟩
    · rintro ⟨usage, husage⟩
      exact ⟨_, usage, husage, rfl⟩

/-- How a list of events moves the order of the turns. -/
def TurnOrder.run (order : TurnOrder) (events : List Json) : TurnOrder :=
  events.foldl (fun order event => order.onType (eventType event)) order

theorem TurnOrder.run_append (order : TurnOrder) (l l' : List Json) :
    order.run (l ++ l') = (order.run l).run l' :=
  List.foldl_append

theorem foldlM_scanEvent_order {events : List Json} {scan scan' : Scan}
    (h : events.foldlM scanEvent scan = .ok scan') :
    scan'.toTurnOrder = scan.toTurnOrder.run events := by
  induction events generalizing scan with
  | nil => rw [← Except.ok.inj h]; rfl
  | cons e events ih =>
    rw [List.foldlM_cons] at h
    obtain ⟨scan₁, hfirst, hrest⟩ := Result.bind_ok_iff.mp h
    rw [ih hrest, scanEvent_order hfirst]
    rfl

theorem foldlM_scanEvent_ok_iff {events : List Json} {scan : Scan} :
    (∃ scan', events.foldlM scanEvent scan = .ok scan') ↔ ∀ e ∈ events, WellFormedUsage e := by
  induction events generalizing scan with
  | nil => exact ⟨fun _ => nofun, fun _ => ⟨scan, rfl⟩⟩
  | cons e events ih =>
    simp only [List.foldlM_cons, Result.bind_ok_iff, List.forall_mem_cons]
    constructor
    · rintro ⟨scan', scan₁, hfirst, hrest⟩
      exact ⟨scanEvent_ok_iff.mp ⟨scan₁, hfirst⟩, ih.mp ⟨scan', hrest⟩⟩
    · rintro ⟨hfirst, hrest⟩
      obtain ⟨scan₁, hscan₁⟩ := scanEvent_ok_iff.mpr hfirst
      obtain ⟨scan', hscan'⟩ := ih.mpr hrest
      exact ⟨scan', scan₁, hscan₁, hscan'⟩

theorem foldlM_lines {fromStr : String → Result Json} {lines : List String}
    (h : ∀ line ∈ lines, ∃ e, fromStr line = .ok e) (scan : Scan) :
    lines.foldlM (fun scan line => do
      let event ← context "Codex emitted invalid JSONL" (fromStr line)
      scanEvent scan event) scan =
      (lines.filterMap (fun line => (fromStr line).toOption)).foldlM scanEvent scan := by
  induction lines generalizing scan with
  | nil => rfl
  | cons line lines ih =>
    obtain ⟨⟨e, he⟩, hlines⟩ := List.forall_mem_cons.mp h
    simp only [List.foldlM_cons, he, context, Except.toOption, List.filterMap_cons]
    exact congrArg _ (funext (fun scan => ih hlines scan))

/-- The parser sees the events of all attempts as one list. -/
theorem parseUsage_output {fromStr : String → Result Json} {attempts : List Attempt}
    (h : ∀ a ∈ attempts, Written fromStr a) :
    parseUsage fromStr (output attempts) =
      (attempts.flatMap (eventsOf fromStr)).foldlM scanEvent Scan.start >>= finishScan := by
  have hlines : ∀ line ∈ attempts.flatMap Attempt.lines,
      Text.IsLine line ∧ Text.isBlank line = false ∧ ∃ e, fromStr line = .ok e := by
    intro line hline
    obtain ⟨a, ha, hmem⟩ := List.mem_flatMap.mp hline
    exact h a ha line hmem
  have hread : Text.lines (output attempts) = attempts.flatMap Attempt.lines :=
    Text.lines_concat (fun line hline => (hlines line hline).1)
  have hkeep : (attempts.flatMap Attempt.lines).filter (fun line => !Text.isBlank line) =
      attempts.flatMap Attempt.lines :=
    List.filter_eq_self.mpr (fun line hline => by simp [(hlines line hline).2.1])
  have hevents : (attempts.flatMap Attempt.lines).filterMap (fun line => (fromStr line).toOption) =
      attempts.flatMap (eventsOf fromStr) := by
    rw [List.filterMap_flatMap]
    rfl
  rw [parseUsage, hread, hkeep, foldlM_lines (fun line hline => (hlines line hline).2.2), hevents]

/-- The flags that make `parse_usage` reject the stream sooner or later. -/
def TurnOrder.Dirty (order : TurnOrder) : Prop :=
  order.activeTurn = true ∨ order.malformedTurnOrder = true

theorem run_of_other {order : TurnOrder} {events : List Json}
    (h : ∀ e ∈ events, ∀ type ∈ turnTypes, eventType e ≠ some type) : order.run events = order := by
  induction events with
  | nil => rfl
  | cons e events ih =>
    obtain ⟨he, hevents⟩ := List.forall_mem_cons.mp h
    have hsame : order.onType (eventType e) = order := by
      simp only [turnTypes, List.forall_mem_cons] at he
      simp [TurnOrder.onType, he]
    rw [TurnOrder.run, List.foldl_cons, hsame]
    exact ih hevents

/-- The three ways an attempt can stop: before its turn, inside it, after it. -/
inductive Shape : List Json → Prop where
  | before {events : List Json} : (∀ e ∈ events, eventType e = some "thread.started") → Shape events
  | inside {thread turn : Json} {items : List Json} :
      eventType thread = some "thread.started" → eventType turn = some "turn.started" →
      (∀ e ∈ items, ∀ type ∈ turnTypes, eventType e ≠ some type) →
      Shape (thread :: turn :: items)
  | after {thread turn last : Json} {items : List Json} :
      eventType thread = some "thread.started" → eventType turn = some "turn.started" →
      (∀ e ∈ items, ∀ type ∈ turnTypes, eventType e ≠ some type) →
      isTerminal last = true → Shape (thread :: turn :: (items ++ [last]))

theorem shape_of_prefix {s : TurnStream} {events : List Json} (h : events <+: s.events) :
    Shape events := by
  rcases List.prefix_cons_iff.mp h with rfl | ⟨rest, rfl, hrest⟩
  · exact .before (by simp)
  rcases List.prefix_cons_iff.mp hrest with rfl | ⟨items, rfl, hitems⟩
  · exact .before (by simpa using s.thread_type)
  have hinside : ∀ items, items <+: s.items → Shape (s.thread :: s.turn :: items) := fun items hi =>
    .inside s.thread_type s.turn_type (fun e he => s.items_type e (hi.subset he))
  cases hterminal : s.terminal with
  | none => exact hinside items (by simpa [hterminal] using hitems)
  | some last =>
    rw [hterminal, Option.toList_some, List.prefix_concat_iff] at hitems
    rcases hitems with rfl | hitems
    · refine .after s.thread_type s.turn_type s.items_type ?_
      simpa [isTerminal] using s.terminal_type last hterminal
    · exact hinside items hitems

theorem onType_isTerminal {order : TurnOrder} {event : Json} (h : isTerminal event = true) :
    ∃ completed, order.onType (eventType event) = order.closeTurn completed := by
  rw [isTerminal, Bool.or_eq_true, decide_eq_true_eq, decide_eq_true_eq] at h
  rcases h with h | h
  · exact ⟨true, by rw [h]; rfl⟩
  · exact ⟨false, by rw [h]; rfl⟩

/-- The order after a turn has been started and not ended. -/
theorem run_inside {order : TurnOrder} {thread turn : Json} {items : List Json}
    (hthread : eventType thread = some "thread.started")
    (hturn : eventType turn = some "turn.started")
    (hitems : ∀ e ∈ items, ∀ type ∈ turnTypes, eventType e ≠ some type) :
    order.run (thread :: turn :: items) =
      { sawThreadStarted := true
        sawTurnStarted := true
        activeTurn := true
        malformedTurnOrder := order.malformedTurnOrder || order.activeTurn
        terminalTurn := none } := by
  have hopen : order.run [thread, turn] =
      { sawThreadStarted := true
        sawTurnStarted := true
        activeTurn := true
        malformedTurnOrder := order.malformedTurnOrder || order.activeTurn
        terminalTurn := none } := by
    simp [TurnOrder.run, TurnOrder.onType, hthread, hturn]
  rw [show thread :: turn :: items = [thread, turn] ++ items from rfl, TurnOrder.run_append, hopen,
    run_of_other hitems]

/-- An attempt leaves the order dirty if it found it so or stopped in its turn. -/
theorem dirty_run_iff {order : TurnOrder} {events : List Json} (h : Shape events) :
    (order.run events).Dirty ↔ order.Dirty ∨
      ((∃ e ∈ events, eventType e = some "turn.started") ∧ ∀ e ∈ events, isTerminal e = false) := by
  cases h with
  | before hevents =>
    have hkept : (order.run events).activeTurn = order.activeTurn ∧
        (order.run events).malformedTurnOrder = order.malformedTurnOrder := by
      induction events generalizing order with
      | nil => exact ⟨rfl, rfl⟩
      | cons e events ih =>
        obtain ⟨he, hrest⟩ := List.forall_mem_cons.mp hevents
        obtain ⟨hactive, hmalformed⟩ := @ih (order.onType (eventType e)) hrest
        rw [TurnOrder.run, List.foldl_cons]
        refine ⟨hactive.trans ?_, hmalformed.trans ?_⟩
        · rw [he]; rfl
        · rw [he]; rfl
    have hnone : ¬ ∃ e ∈ events, eventType e = some "turn.started" := by
      rintro ⟨e, he, htype⟩
      rw [hevents e he] at htype
      exact absurd htype (by decide)
    simp [TurnOrder.Dirty, hkept, hnone]
  | @inside thread turn items hthread hturn hitems =>
    have hcut : (∃ e ∈ thread :: turn :: items, eventType e = some "turn.started") ∧
        ∀ e ∈ thread :: turn :: items, isTerminal e = false := by
      refine ⟨⟨turn, by simp, hturn⟩, ?_⟩
      simp only [List.forall_mem_cons]
      refine ⟨by simp [isTerminal, hthread], by simp [isTerminal, hturn], fun e he => ?_⟩
      have hother := hitems e he
      simp only [turnTypes, List.forall_mem_cons] at hother
      simp [isTerminal, hother]
    rw [run_inside hthread hturn hitems]
    exact ⟨fun _ => .inr hcut, fun _ => .inl rfl⟩
  | @after thread turn last items hthread hturn hitems hlast =>
    obtain ⟨completed, hclose⟩ :=
      @onType_isTerminal (order.run (thread :: turn :: items)) last hlast
    have hrun : order.run (thread :: turn :: (items ++ [last])) =
        (order.run (thread :: turn :: items)).closeTurn completed := by
      rw [← hclose, ← List.cons_append, ← List.cons_append, TurnOrder.run_append]
      rfl
    have hnot : ¬ ∀ e ∈ thread :: turn :: (items ++ [last]), isTerminal e = false := fun hall =>
      absurd (hall last (by simp)) (by simp [hlast])
    rw [hrun, run_inside hthread hturn hitems]
    simp only [TurnOrder.Dirty, TurnOrder.closeTurn, hnot, and_false, or_false, Bool.not_true]
    cases order.activeTurn <;> cases order.malformedTurnOrder <;> simp

theorem dirty_run_flatMap_iff {fromStr : String → Result Json} {attempts : List Attempt}
    (h : ∀ a ∈ attempts, Shape (eventsOf fromStr a)) {order : TurnOrder} :
    (order.run (attempts.flatMap (eventsOf fromStr))).Dirty ↔
      order.Dirty ∨ ∃ a ∈ attempts, CutInTurn fromStr a := by
  induction attempts generalizing order with
  | nil => simp [TurnOrder.run]
  | cons a attempts ih =>
    obtain ⟨ha, hattempts⟩ := List.forall_mem_cons.mp h
    rw [List.flatMap_cons, TurnOrder.run_append, ih hattempts, dirty_run_iff ha]
    simp only [List.exists_mem_cons_iff, CutInTurn, or_assoc]

theorem finishScan_ok_iff {scan : Scan} : (∃ usage, finishScan scan = .ok usage) ↔
    scan.sawThreadStarted = true ∧ scan.sawTurnStarted = true ∧ ¬ scan.Dirty ∧
      scan.terminalTurn = some true := by
  simp only [finishScan, Result.bind_ok_iff, Result.exists_unit_iff, Result.ensure_ok_iff,
    Result.pure_ok_iff, exists_and_left, exists_eq', and_true, TurnOrder.Dirty, not_or,
    Bool.not_eq_true]
  tauto

theorem finishScan_completed_iff {s : TurnStream} {last : Json} (hs : s.terminal = some last)
    (hlast : eventType last = some "turn.completed") {order : TurnOrder} {scan : Scan}
    (hscan : scan.toTurnOrder = order.run s.events) :
    (∃ usage, finishScan scan = .ok usage) ↔ ¬ order.Dirty := by
  have hevents : s.events = (s.thread :: s.turn :: s.items) ++ [last] := by
    simp [TurnStream.events, hs]
  have hrun : order.run s.events =
      { sawThreadStarted := true
        sawTurnStarted := true
        activeTurn := false
        malformedTurnOrder := order.malformedTurnOrder || order.activeTurn
        terminalTurn := some true } := by
    rw [hevents, TurnOrder.run_append, run_inside s.thread_type s.turn_type s.items_type]
    simp [TurnOrder.run, TurnOrder.onType, hlast, TurnOrder.closeTurn]
  rw [finishScan_ok_iff, hscan, hrun]
  simp [TurnOrder.Dirty, and_comm]

/-- However often the run was resumed, a last attempt that ends well is accepted
exactly when no earlier attempt stopped inside its turn and none wrote a usage
that cannot be read. -/
theorem parseUsage_accepts_iff_no_attempt_cut (fromStr : String → Result Json)
    (disableAutoResume : Bool) (next : Nat → Attempt) (earlier : List Attempt) (last : Attempt)
    (hmade : runLoop disableAutoResume next = earlier ++ [last])
    (hearlier : ∀ a ∈ earlier, Behaves fromStr a) (hlast : EndsWell fromStr last) :
    (∃ usage, parseUsage fromStr (output (runLoop disableAutoResume next)) = .ok usage) ↔
      ∀ a ∈ earlier, ¬ CutInTurn fromStr a ∧ ∀ e ∈ eventsOf fromStr a, WellFormedUsage e := by
  obtain ⟨hwritten, _, s, hevents, ⟨terminal, hterminal, htype⟩, husage⟩ := hlast
  have hshape : ∀ a ∈ earlier, Shape (eventsOf fromStr a) := by
    intro a ha
    obtain ⟨_, t, ht⟩ := hearlier a ha
    exact shape_of_prefix ht
  have hall : ∀ a ∈ earlier ++ [last], Written fromStr a := by
    intro a ha
    rcases List.mem_append.mp ha with ha | ha
    · exact (hearlier a ha).1
    · rw [List.mem_singleton.mp ha]
      exact hwritten
  have hlist : (earlier ++ [last]).flatMap (eventsOf fromStr) =
      earlier.flatMap (eventsOf fromStr) ++ s.events := by
    simp [hevents]
  have hclean : ¬ (Scan.start.toTurnOrder.run (earlier.flatMap (eventsOf fromStr))).Dirty ↔
      ∀ a ∈ earlier, ¬ CutInTurn fromStr a := by
    rw [dirty_run_flatMap_iff hshape]
    simp [TurnOrder.Dirty, Scan.start]
  rw [hmade, parseUsage_output hall, hlist]
  constructor
  · rintro ⟨usage, h⟩
    obtain ⟨scan, hscan, hfinish⟩ := Result.bind_ok_iff.mp h
    have hread := foldlM_scanEvent_ok_iff.mp ⟨scan, hscan⟩
    have horder := foldlM_scanEvent_order hscan
    rw [TurnOrder.run_append] at horder
    have hnocut := hclean.mp ((finishScan_completed_iff hterminal htype horder).mp ⟨usage, hfinish⟩)
    refine fun a ha => ⟨hnocut a ha, fun e he => hread e ?_⟩
    exact List.mem_append_left _ (List.mem_flatMap.mpr ⟨a, ha, he⟩)
  · intro h
    have hread : ∀ e ∈ earlier.flatMap (eventsOf fromStr) ++ s.events, WellFormedUsage e := by
      intro e he
      rcases List.mem_append.mp he with he | he
      · obtain ⟨a, ha, hmem⟩ := List.mem_flatMap.mp he
        exact (h a ha).2 e hmem
      · exact husage e he
    obtain ⟨scan, hscan⟩ := foldlM_scanEvent_ok_iff.mpr hread
    have horder := foldlM_scanEvent_order hscan
    rw [TurnOrder.run_append] at horder
    obtain ⟨usage, hfinish⟩ := (finishScan_completed_iff hterminal htype horder).mpr
      (hclean.mpr (fun a ha => (h a ha).1))
    exact ⟨usage, Result.bind_ok_iff.mpr ⟨scan, hscan, hfinish⟩⟩

section Runs

private def threadLine : String := "\x7b\"type\":\"thread.started\",\"thread_id\":\"0\"\x7d"

private def turnLine : String := "\x7b\"type\":\"turn.started\"\x7d"

private def completedLine : String :=
  "\x7b\"type\":\"turn.completed\",\"usage\":\x7b\"input_tokens\":12,\"output_tokens\":5\x7d\x7d"

private def threadEvent : Json :=
  .object [("thread_id", .string "0"), ("type", .string "thread.started")]

private def turnEvent : Json := .object [("type", .string "turn.started")]

private def completedEvent : Json :=
  .object [("type", .string "turn.completed"),
    ("usage", .object [("input_tokens", .number (.posInt 12)), ("output_tokens", .number (.posInt 5))])]

/-- `serde_json::from_str` on the three lines. -/
private def readLine (line : String) : Result Json :=
  if line = threadLine then .ok threadEvent
  else if line = turnLine then .ok turnEvent
  else if line = completedLine then .ok completedEvent
  else .error "expected value at line 1 column 1"

/-- A complete attempt, long enough to be resumed. -/
private def fullAttempt : Attempt :=
  { lines := [threadLine, turnLine, completedLine], status := 0, elapsed := 4500
    stopReviewAccepted := false }

/-- The last attempt, which the stop review accepted. -/
private def lastAttempt : Attempt := { fullAttempt with stopReviewAccepted := true }

/-- An attempt killed in its turn. -/
private def killedAttempt : Attempt :=
  { lines := [threadLine, turnLine], status := 137, elapsed := 4500, stopReviewAccepted := false }

private def fullStream : TurnStream where
  thread := threadEvent
  turn := turnEvent
  items := []
  terminal := some completedEvent
  thread_type := rfl
  turn_type := rfl
  items_type := nofun
  terminal_type := by
    rintro e ⟨rfl⟩
    exact .inl rfl

private theorem isLine_of_decide {s : String} (hbreak : (s.toList.all (· ≠ '\n')) = true)
    (hreturn : (s.toList.getLast? ≠ some '\r')) : Text.IsLine s :=
  ⟨fun h => by simpa using List.all_eq_true.mp hbreak _ h, hreturn⟩

private theorem written_full : Written readLine fullAttempt := by
  have hthread : Text.IsLine threadLine := isLine_of_decide (by decide) (by decide)
  have hturn : Text.IsLine turnLine := isLine_of_decide (by decide) (by decide)
  have hcompleted : Text.IsLine completedLine := isLine_of_decide (by decide) (by decide)
  intro line hline
  simp only [fullAttempt, List.mem_cons, List.not_mem_nil, or_false] at hline
  rcases hline with rfl | rfl | rfl
  · exact ⟨hthread, by decide, threadEvent, rfl⟩
  · exact ⟨hturn, by decide, turnEvent, rfl⟩
  · exact ⟨hcompleted, by decide, completedEvent, rfl⟩

private theorem endsWell_last : EndsWell readLine lastAttempt := by
  refine ⟨written_full, rfl, fullStream, rfl, ⟨completedEvent, rfl, rfl⟩, ?_⟩
  intro e he
  simp only [TurnStream.events, fullStream, List.nil_append, Option.toList_some, List.mem_cons,
    List.not_mem_nil, or_false] at he
  rcases he with rfl | rfl | rfl
  · exact fun value hvalue => absurd hvalue nofun
  · exact fun value hvalue => absurd hvalue nofun
  · intro value hvalue
    obtain rfl := Option.some.inj hvalue
    exact ⟨_, rfl⟩

/-- One resume after a complete attempt. -/
theorem parseUsage_accepts_iff_no_attempt_cut_resumed :
    (∃ usage, parseUsage readLine (output (runLoop false
      (fun i => if i = 0 then fullAttempt else lastAttempt))) = .ok usage) ↔
      ∀ a ∈ [fullAttempt], ¬ CutInTurn readLine a ∧ ∀ e ∈ eventsOf readLine a, WellFormedUsage e :=
  parseUsage_accepts_iff_no_attempt_cut readLine false _ [fullAttempt] lastAttempt rfl
    (by simpa using ⟨written_full, fullStream, List.prefix_rfl⟩) endsWell_last

/-- One resume after an attempt that was killed in its turn: the last attempt
ends well, and the stream is rejected. -/
theorem killed_attempt_rejected :
    let next : Nat → Attempt := fun i => if i = 0 then killedAttempt else lastAttempt
    runLoop false next = [killedAttempt] ++ [lastAttempt] ∧ Behaves readLine killedAttempt ∧
      EndsWell readLine lastAttempt ∧
      parseUsage readLine (output (runLoop false next)) =
        .error "Codex event stream has malformed turn ordering" := by
  have hwritten : Written readLine killedAttempt := fun line hline =>
    written_full line (List.mem_of_mem_take (i := 2) hline)
  refine ⟨rfl, ⟨hwritten, fullStream, [completedEvent], rfl⟩, endsWell_last, ?_⟩
  have hall : ∀ a ∈ [killedAttempt, lastAttempt], Written readLine a := by
    simpa using ⟨hwritten, written_full⟩
  exact (parseUsage_output hall).trans rfl

end Runs

end A3sBench.CodexEvents
