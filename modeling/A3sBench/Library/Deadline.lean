import A3sBench.Library.Action

/-!
# Trying again until a deadline

A loop that tries, looks at the clock and sleeps runs on as many rounds as it is
given. What one try keeps the loop keeps, and since every sleep brings the clock
nearer to the deadline, enough rounds are as good as any number of them.
-/

namespace A3sBench.Library.Action

variable {σ ε κ α : Type}

section Loop

variable (now : Action σ ε Nat) (sleep : Action σ ε Unit) (exhausted : ε)

/-- A try ends the loop with a value or hands a state to the next try. Past the deadline the loop
ends with what the last state makes of it. -/
def untilDeadline (deadline : Nat) (step : κ → Action σ ε (α ⊕ κ)) (expired : κ → Action σ ε α) :
    Nat → κ → Action σ ε α
  | 0, _ => raise exhausted
  | rounds + 1, state => do
    match ← step state with
    | .inl a => pure a
    | .inr state => do
      let time ← now
      if deadline ≤ time then expired state
      else do
        sleep
        untilDeadline deadline step expired rounds state

variable {now sleep exhausted} {deadline : Nat} {step : κ → Action σ ε (α ⊕ κ)}
  {expired : κ → Action σ ε α} {R : σ → σ → Prop}

theorem keeps_untilDeadline (hrefl : ∀ s, R s s) (htrans : ∀ s t r, R s t → R t r → R s r)
    (hnow : Keeps R now) (hsleep : Keeps R sleep) (hstep : ∀ state, Keeps R (step state))
    (hexpired : ∀ state, Keeps R (expired state)) (rounds : Nat) (state : κ) :
    Keeps R (untilDeadline now sleep exhausted deadline step expired rounds state) := by
  induction rounds generalizing state with
  | zero => exact keeps_raise hrefl exhausted
  | succ rounds ih =>
    refine (hstep state).bind htrans ?_
    rintro (a | state)
    · exact hrefl
    · refine hnow.bind htrans fun time => ?_
      split_ifs
      · exact hexpired state
      · exact hsleep.bind htrans fun _ => ih state

/-- What holds of the state and the world before each try holds of the value after the last. -/
theorem untilDeadline_ok {I : κ → σ → Prop} {Q : α → σ → Prop}
    (hnow : ∀ state s t time, I state s → now s = (t, .ok time) → I state t)
    (hsleep : ∀ state s t, I state s → sleep s = (t, .ok ()) → I state t)
    (hdone : ∀ state s t a, I state s → step state s = (t, .ok (.inl a)) → Q a t)
    (hmore : ∀ state s t state', I state s → step state s = (t, .ok (.inr state')) → I state' t)
    (hexpired : ∀ state s t a, I state s → expired state s = (t, .ok a) → Q a t)
    {rounds : Nat} {state : κ} {s t : σ} {a : α} (hI : I state s)
    (h : untilDeadline now sleep exhausted deadline step expired rounds state s = (t, .ok a)) :
    Q a t := by
  induction rounds generalizing state s with
  | zero => simp [untilDeadline] at h
  | succ rounds ih =>
    rw [untilDeadline, bind_ok_iff] at h
    obtain ⟨next, r, hnext, h⟩ := h
    cases next with
    | inl a' =>
      obtain ⟨rfl, rfl⟩ := pure_ok_iff.mp h
      exact hdone state s r a' hI hnext
    | inr state' =>
      simp only [bind_ok_iff] at h
      obtain ⟨time, r', htime, h⟩ := h
      have hlater : I state' r' := hnow _ _ _ _ (hmore state s r state' hI hnext) htime
      split_ifs at h
      · exact hexpired state' r' t a hlater h
      · rw [bind_ok_iff] at h
        obtain ⟨_, r'', hslept, h⟩ := h
        exact ih (hsleep state' r' r'' hlater hslept) h

end Loop

section Enough

variable {now : Action σ ε Nat} {sleep : Action σ ε Unit} {exhausted : ε} {deadline : Nat}
  {step : κ → Action σ ε (α ⊕ κ)} {expired : κ → Action σ ε α} (clock : σ → Nat)

/-- With every sleep as long as the interval, one more round changes nothing once the rounds reach
over the deadline. -/
theorem untilDeadline_succ {interval : Nat}
    (hnow : ∀ s t time, now s = (t, .ok time) → clock s ≤ time ∧ time = clock t)
    (hsleep : ∀ s t, sleep s = (t, .ok ()) → clock s + interval ≤ clock t)
    (hstep : ∀ state s t next, step state s = (t, .ok next) → clock s ≤ clock t)
    {rounds : Nat} {state : κ} {s : σ} (h : deadline ≤ clock s + rounds * interval) :
    untilDeadline now sleep exhausted deadline step expired (rounds + 2) state s =
      untilDeadline now sleep exhausted deadline step expired (rounds + 1) state s := by
  induction rounds generalizing state s with
  | zero =>
    rw [untilDeadline, untilDeadline]
    refine bind_congr_of_ok fun next r hnext => ?_
    rcases next with a | state'
    · rfl
    refine bind_congr_of_ok fun time r' htime => ?_
    have hpast : deadline ≤ time := by
      have hfirst := hstep _ _ _ _ hnext
      have hsecond := (hnow _ _ _ htime).1
      omega
    rw [if_pos hpast, if_pos hpast]
  | succ rounds ih =>
    rw [untilDeadline, untilDeadline]
    refine bind_congr_of_ok fun next r hnext => ?_
    rcases next with a | state'
    · rfl
    refine bind_congr_of_ok fun time r' htime => ?_
    split_ifs
    · rfl
    refine bind_congr_of_ok fun _ r'' hslept => ih ?_
    have hfirst := hstep _ _ _ _ hnext
    obtain ⟨hsecond, rfl⟩ := hnow _ _ _ htime
    have hthird := hsleep _ _ hslept
    rw [Nat.add_mul, Nat.one_mul] at h
    omega

theorem untilDeadline_enough {interval : Nat}
    (hnow : ∀ s t time, now s = (t, .ok time) → clock s ≤ time ∧ time = clock t)
    (hsleep : ∀ s t, sleep s = (t, .ok ()) → clock s + interval ≤ clock t)
    (hstep : ∀ state s t next, step state s = (t, .ok next) → clock s ≤ clock t)
    {rounds : Nat} {state : κ} {s : σ} (h : deadline ≤ clock s + rounds * interval)
    (extra : Nat) :
    untilDeadline now sleep exhausted deadline step expired (rounds + 1 + extra) state s =
      untilDeadline now sleep exhausted deadline step expired (rounds + 1) state s := by
  induction extra with
  | zero => rfl
  | succ extra ih =>
    have hreach : deadline ≤ clock s + (rounds + extra) * interval := by
      rw [Nat.add_mul]
      omega
    rw [← ih, show rounds + 1 + (extra + 1) = rounds + extra + 2 by omega,
      show rounds + 1 + extra = rounds + extra + 1 by omega]
    exact untilDeadline_succ clock hnow hsleep hstep hreach

end Enough

end A3sBench.Library.Action
