import Mathlib

/-!
# Actions that keep their state when they fail

An action returns the state it leaves together with its value or its error. One
rule inverts the success of a sequence, another carries a relation between the
first and the last state through it, whatever the outcome. Watching an action
notes the states in between.
-/

namespace A3sBench.Library

/-- A state transformer whose errors do not roll the state back. -/
def Action (σ ε α : Type) := σ → σ × Except ε α

namespace Action

variable {σ ε α β : Type}

def lift (x : Except ε α) : Action σ ε α := fun s => (s, x)

def bind (x : Action σ ε α) (f : α → Action σ ε β) : Action σ ε β := fun s =>
  match x s with
  | (t, .ok a) => f a t
  | (t, .error e) => (t, .error e)

instance : Monad (Action σ ε) where
  pure a := lift (.ok a)
  bind := bind

theorem bind_of_ok {x : Action σ ε α} {f : α → Action σ ε β} {s t : σ} {a : α}
    (h : x s = (t, .ok a)) : (x >>= f) s = f a t := by
  change bind x f s = _
  rw [bind, h]

theorem bind_of_error {x : Action σ ε α} {f : α → Action σ ε β} {s t : σ} {e : ε}
    (h : x s = (t, .error e)) : (x >>= f) s = (t, .error e) := by
  change bind x f s = _
  rw [bind, h]

@[simp] theorem bind_ok_iff {x : Action σ ε α} {f : α → Action σ ε β} {s t : σ} {b : β} :
    (x >>= f) s = (t, .ok b) ↔ ∃ a r, x s = (r, .ok a) ∧ f a r = (t, .ok b) := by
  change bind x f s = _ ↔ _
  unfold bind
  rcases x s with ⟨r, e | a⟩
  · simp
  · constructor
    · exact fun h => ⟨a, r, rfl, h⟩
    · rintro ⟨_, _, h, hf⟩
      cases h
      exact hf

@[simp] theorem lift_ok_iff {x : Except ε α} {s t : σ} {a : α} :
    lift x s = (t, .ok a) ↔ s = t ∧ x = .ok a := by
  simp [lift]

@[simp] theorem pure_ok_iff {s t : σ} {a b : α} :
    (pure a : Action σ ε α) s = (t, .ok b) ↔ s = t ∧ a = b := by
  change lift (.ok a) s = _ ↔ _
  simp

/-- Whatever the action does, its last state stands in the relation to its first. -/
def Keeps (R : σ → σ → Prop) (x : Action σ ε α) : Prop := ∀ s, R s (x s).1

variable {R : σ → σ → Prop}

theorem keeps_lift (hrefl : ∀ s, R s s) (x : Except ε α) : Keeps R (lift x : Action σ ε α) :=
  fun s => hrefl s

theorem Keeps.bind (htrans : ∀ s t r, R s t → R t r → R s r) {x : Action σ ε α}
    {f : α → Action σ ε β} (hx : Keeps R x) (hf : ∀ a, Keeps R (f a)) : Keeps R (x >>= f) := by
  intro s
  change R s (Action.bind x f s).1
  have hfirst : R s (x s).1 := hx s
  unfold Action.bind
  generalize x s = first at hfirst ⊢
  rcases first with ⟨t, e | a⟩
  · exact hfirst
  · exact htrans _ _ _ hfirst (hf a t)

/-- A computation on the side passes on what it returned. -/
theorem keeps_lift_bind (hrefl : ∀ s, R s s) {x : Except ε α} {f : α → Action σ ε β}
    (hf : ∀ a, x = .ok a → Keeps R (f a)) : Keeps R (lift x >>= f) := by
  intro s
  cases x with
  | error e => exact hrefl s
  | ok a => exact hf a rfl s

/-- The last state of a sequence is that of its first part when this fails. -/
theorem fst_bind {Q : σ → Prop} {x : Action σ ε α} {f : α → Action σ ε β} {s : σ}
    (hfail : Q (x s).1) (hok : ∀ a t, x s = (t, .ok a) → Q (f a t).1) : Q ((x >>= f) s).1 := by
  change Q (bind x f s).1
  unfold bind
  rcases hx : x s with ⟨t, e | a⟩
  · rw [hx] at hfail
    exact hfail
  · exact hok a t hx

/-- The invariant survives a success, and whatever the outcome the bound holds. -/
def Maintains (I J : σ → Prop) (x : Action σ ε α) : Prop :=
  ∀ s, I s → J (x s).1 ∧ ∀ a, (x s).2 = .ok a → I (x s).1

section Maintains

variable {I J : σ → Prop}

theorem maintains_lift (hbound : ∀ s, I s → J s) (x : Except ε α) :
    Maintains I J (lift x : Action σ ε α) :=
  fun s hs => ⟨hbound s hs, fun _ _ => hs⟩

theorem Maintains.bind {x : Action σ ε α} {f : α → Action σ ε β} (hx : Maintains I J x)
    (hf : ∀ a, Maintains I J (f a)) : Maintains I J (x >>= f) := by
  intro s hs
  change J (Action.bind x f s).1 ∧ ∀ b, (Action.bind x f s).2 = .ok b → I (Action.bind x f s).1
  obtain ⟨hbound, hinvariant⟩ := hx s hs
  unfold Action.bind
  generalize x s = first at hbound hinvariant ⊢
  rcases first with ⟨t, e | a⟩
  · exact ⟨hbound, fun _ hok => by cases hok⟩
  · exact hf a t (hinvariant a rfl)

theorem maintains_ite {p : Prop} [Decidable p] {x y : Action σ ε α} (hx : Maintains I J x)
    (hy : Maintains I J y) : Maintains I J (if p then x else y) := by
  split
  · exact hx
  · exact hy

end Maintains

instance lawfulMonadAction : LawfulMonad (Action σ ε) := by
  refine LawfulMonad.mk' (Action σ ε) ?_ ?_ ?_
  · intro α x
    funext s
    change bind x (fun a => lift (.ok a)) s = x s
    unfold bind
    rcases x s with ⟨t, _ | _⟩ <;> rfl
  · intro α β a f
    rfl
  · intro α β γ x f g
    funext s
    change bind (bind x f) g s = bind x (fun a => bind (f a) g) s
    unfold bind
    rcases x s with ⟨t, _ | _⟩ <;> rfl

section Run

/-- The outcome, the state forgotten when the action fails. -/
def run (x : Action σ ε α) (s : σ) : Except ε (α × σ) :=
  match x s with
  | (t, .ok a) => .ok (a, t)
  | (_, .error e) => .error e

/-- A step that changes the state only when it succeeds. -/
def commit (f : σ → Except ε (α × σ)) : Action σ ε α := fun s =>
  match f s with
  | .ok (a, t) => (t, .ok a)
  | .error e => (s, .error e)

theorem run_ok_iff {x : Action σ ε α} {s t : σ} {a : α} :
    run x s = .ok (a, t) ↔ x s = (t, .ok a) := by
  unfold run
  rcases x s with ⟨r, e | b⟩
  · simp
  · simp [and_comm]

theorem run_commit (f : σ → Except ε (α × σ)) (s : σ) : run (commit f) s = f s := by
  unfold run commit
  rcases f s with e | ⟨a, t⟩ <;> rfl

theorem run_lift (x : Except ε α) (s : σ) :
    run (lift x : Action σ ε α) s = x >>= fun a => .ok (a, s) := by
  cases x <;> rfl

theorem run_pure (a : α) (s : σ) : run (pure a : Action σ ε α) s = .ok (a, s) := rfl

theorem run_bind (x : Action σ ε α) (f : α → Action σ ε β) (s : σ) :
    run (x >>= f) s = run x s >>= fun p => run (f p.1) p.2 := by
  change run (bind x f) s = _
  unfold run bind
  rcases x s with ⟨t, e | a⟩ <;> rfl

end Run

section Watch

variable {τ : Type}

/-- The action, with a note of what is seen of the state it leaves. -/
def watch (view : σ → τ) (x : Action σ ε α) : Action (σ × List τ) ε α := fun p =>
  (((x p.1).1, p.2 ++ [view (x p.1).1]), (x p.1).2)

/-- The notes apart, the watched action does what the action does. -/
def Watches (x : Action (σ × List τ) ε α) (y : Action σ ε α) : Prop :=
  ∀ p, ((x p).1.1, (x p).2) = y p.1

theorem watches_watch (view : σ → τ) (x : Action σ ε α) : Watches (watch view x) x :=
  fun _ => rfl

theorem watches_pure (a : α) : Watches (pure a : Action (σ × List τ) ε α) (pure a) :=
  fun _ => rfl

theorem Watches.bind {x : Action (σ × List τ) ε α} {y : Action σ ε α}
    {f : α → Action (σ × List τ) ε β} {g : α → Action σ ε β} (hx : Watches x y)
    (hf : ∀ a, Watches (f a) (g a)) : Watches (x >>= f) (y >>= g) := by
  intro p
  have hfirst := hx p
  change ((Action.bind x f p).1.1, (Action.bind x f p).2) = Action.bind y g p.1
  unfold Action.bind
  rw [← hfirst]
  generalize x p = first
  rcases first with ⟨⟨t, notes⟩, e | a⟩
  · rfl
  · exact hf a (t, notes)

/-- Watching notes the state it ends in and forgets nothing. -/
theorem keeps_notes (view : σ → τ) (x : Action σ ε α) :
    Keeps (fun p q => view q.1 ∈ q.2 ∧ p.2 ⊆ q.2) (watch view x) :=
  fun _ => ⟨List.mem_append_right _ (List.mem_singleton_self _), List.subset_append_left _ _⟩

/-- An invariant of the state and a property of everything noted. -/
def Noted (I : σ → Prop) (J : τ → Prop) (p : σ × List τ) : Prop := I p.1 ∧ ∀ v ∈ p.2, J v

/-- What every state of an invariant shows is noted along the way. -/
theorem keeps_watch {I : σ → Prop} {J : τ → Prop} {view : σ → τ} {x : Action σ ε α}
    (hJ : ∀ s, I s → J (view s)) (hx : Keeps (fun s t => I s → I t) x) :
    Keeps (fun p q => Noted I J p → Noted I J q) (watch view x) := by
  rintro p ⟨hI, hnotes⟩
  have hnext := hx p.1 hI
  refine ⟨hnext, ?_⟩
  intro v hv
  rcases List.mem_append.mp hv with hv | hv
  · exact hnotes v hv
  · rw [List.mem_singleton.mp hv]
    exact hJ _ hnext

end Watch

section Outcomes

variable {ε' : Type}

def raise (e : ε) : Action σ ε α := lift (.error e)

/-- A change of the state that cannot fail. -/
def effect (f : σ → σ × α) : Action σ ε α := fun s => ((f s).1, .ok (f s).2)

/-- The outcome of an action that may fail, for the next action to look at. -/
def tried (x : Action σ ε α) : Action σ ε' (Except ε α) := fun s => ((x s).1, .ok (x s).2)

def relabel (f : ε → ε') (x : Action σ ε α) : Action σ ε' α := fun s =>
  ((x s).1, (x s).2.mapError f)

/-- Two continuations agree on what the first action returns. -/
theorem bind_congr_of_ok {x : Action σ ε α} {f g : α → Action σ ε β} {s : σ}
    (h : ∀ a t, x s = (t, .ok a) → f a t = g a t) : (x >>= f) s = (x >>= g) s := by
  change Action.bind x f s = Action.bind x g s
  unfold Action.bind
  generalize hx : x s = p at h
  rcases p with ⟨t, e | a⟩
  · rfl
  · exact h a t rfl

@[simp] theorem raise_ok_iff {e : ε} {s t : σ} {a : α} :
    (raise e : Action σ ε α) s = (t, .ok a) ↔ False := by
  simp [raise]

@[simp] theorem effect_ok_iff {f : σ → σ × α} {s t : σ} {a : α} :
    (effect f : Action σ ε α) s = (t, .ok a) ↔ f s = (t, a) := by
  simp [effect, Prod.ext_iff]

@[simp] theorem tried_ok_iff {x : Action σ ε α} {s t : σ} {r : Except ε α} :
    (tried x : Action σ ε' (Except ε α)) s = (t, .ok r) ↔ x s = (t, r) := by
  simp [tried, Prod.ext_iff]

@[simp] theorem relabel_ok_iff {f : ε → ε'} {x : Action σ ε α} {s t : σ} {a : α} :
    relabel f x s = (t, .ok a) ↔ x s = (t, .ok a) := by
  unfold relabel
  rcases x s with ⟨r, e | b⟩ <;> simp [Except.mapError]

theorem keeps_raise (hrefl : ∀ s, R s s) (e : ε) : Keeps R (raise e : Action σ ε α) :=
  fun s => hrefl s

theorem keeps_effect {f : σ → σ × α} (h : ∀ s, R s (f s).1) : Keeps R (effect f : Action σ ε α) := h

theorem keeps_forM (hrefl : ∀ s, R s s) (htrans : ∀ s t r, R s t → R t r → R s r)
    {f : α → Action σ ε Unit} (hf : ∀ a, Keeps R (f a)) (l : List α) : Keeps R (l.forM f) := by
  induction l with
  | nil => exact hrefl
  | cons a l ih => exact (hf a).bind htrans (fun _ => ih)

theorem Keeps.tried {x : Action σ ε α} (h : Keeps R x) :
    Keeps R (tried x : Action σ ε' (Except ε α)) := h

theorem Keeps.relabel {x : Action σ ε α} (h : Keeps R x) (f : ε → ε') :
    Keeps R (relabel f x) := h

end Outcomes

end Action

end A3sBench.Library
