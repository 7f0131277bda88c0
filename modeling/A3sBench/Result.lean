import Mathlib

/-!
# Fallible computations

An `anyhow::Error` is kept as the text its alternate rendering prints: the
outermost context first, each cause after a colon.
-/

namespace A3sBench

abbrev Result (α : Type _) := Except String α

/-- `anyhow::ensure!`. -/
def ensure (condition : Prop) [Decidable condition] (message : String) : Result Unit :=
  if condition then .ok () else .error message

/-- `Context::context`. -/
def context {α : Type _} (message : String) : Result α → Result α
  | .ok value => .ok value
  | .error cause => .error (message ++ ": " ++ cause)

/-- `Option::ok_or_else`. -/
def okOr {α : Type _} (value : Option α) (message : String) : Result α :=
  match value with
  | some value => .ok value
  | none => .error message

namespace Result

variable {α β : Type _}

def isOk : Result α → Bool
  | .ok _ => true
  | .error _ => false

@[simp] theorem isOk_ok (a : α) : isOk (.ok a : Result α) = true := rfl

@[simp] theorem isOk_error (e : String) : isOk (.error e : Result α) = false := rfl

theorem isOk_iff {x : Result α} : isOk x = true ↔ ∃ a, x = .ok a := by
  cases x <;> simp

@[simp] theorem bind_ok_iff {x : Result α} {f : α → Result β} {b : β} :
    (x >>= f) = .ok b ↔ ∃ a, x = .ok a ∧ f a = .ok b := by
  cases x <;> simp [bind, Except.bind]

@[simp] theorem map_ok_iff {x : Result α} {f : α → β} {b : β} :
    f <$> x = .ok b ↔ ∃ a, x = .ok a ∧ f a = b := by
  cases x <;> simp [Functor.map, Except.map]

/-- A check made for its error only: the steps after it run exactly when it passes. -/
@[simp] theorem exists_unit_iff {p : Unit → Prop} : (∃ u, p u) ↔ p () :=
  ⟨fun ⟨_, h⟩ => h, fun h => ⟨(), h⟩⟩

@[simp] theorem pure_ok_iff {a b : α} : (pure a : Result α) = .ok b ↔ a = b := by
  simp [pure, Except.pure]

@[simp] theorem ensure_ok_iff {c : Prop} [Decidable c] {m : String} {u : Unit} :
    ensure c m = .ok u ↔ c := by
  unfold ensure
  split <;> simp_all

@[simp] theorem context_ok_iff {m : String} {x : Result α} {a : α} :
    context m x = .ok a ↔ x = .ok a := by
  cases x <;> simp [context]

@[simp] theorem okOr_ok_iff {x : Option α} {m : String} {a : α} :
    okOr x m = .ok a ↔ x = some a := by
  cases x <;> simp [okOr]

theorem forM_ok_iff {f : α → Result Unit} {l : List α} :
    l.forM f = .ok () ↔ ∀ a ∈ l, f a = .ok () := by
  induction l with
  | nil => simp
  | cons a l ih =>
    rw [List.forall_mem_cons, ← ih]
    exact bind_ok_iff.trans exists_unit_iff

/-- A traversal relates the lists element by element. -/
theorem forall₂_of_mapM {f : α → Result β} {l : List α} {l' : List β} (h : l.mapM f = .ok l') :
    List.Forall₂ (fun a b => f a = .ok b) l l' := by
  induction l generalizing l' with
  | nil =>
    obtain rfl : [] = l' := pure_ok_iff.mp h
    exact .nil
  | cons a l ih =>
    simp only [List.mapM_cons, bind_ok_iff, pure_ok_iff] at h
    obtain ⟨b, hb, bs, hbs, rfl⟩ := h
    exact .cons hb (ih hbs)

theorem exists_mapM {f : α → Result β} {l : List α} (h : ∀ a ∈ l, ∃ b, f a = .ok b) :
    ∃ l', l.mapM f = .ok l' := by
  induction l with
  | nil => exact ⟨[], rfl⟩
  | cons a l ih =>
    obtain ⟨⟨b, hb⟩, hl⟩ := List.forall_mem_cons.mp h
    obtain ⟨bs, hbs⟩ := ih hl
    simp only [List.mapM_cons, bind_ok_iff, pure_ok_iff]
    exact ⟨_, b, hb, bs, hbs, rfl⟩

end Result

/-- How a call fails that may also panic. -/
inductive Failure where
  | error (message : String)
  | panic (message : String)
  deriving DecidableEq

abbrev Outcome (α : Type _) := Except Failure α

namespace Outcome

variable {α β : Type _}

def ofResult : Result α → Outcome α
  | .ok value => .ok value
  | .error message => .error (.error message)

def Panics (x : Outcome α) : Prop := ∃ message, x = .error (.panic message)

@[simp] theorem not_panics_ofResult (x : Result α) : ¬ Panics (ofResult x) := by
  rintro ⟨message, h⟩
  cases x <;> cases h

@[simp] theorem not_panics_ok (a : α) : ¬ Panics (.ok a : Outcome α) := by
  rintro ⟨message, h⟩
  cases h

@[simp] theorem ofResult_ok_iff {x : Result α} {a : α} : ofResult x = .ok a ↔ x = .ok a := by
  cases x <;> simp [ofResult]

end Outcome

end A3sBench
