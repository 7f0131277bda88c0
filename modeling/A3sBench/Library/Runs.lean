import Mathlib

/-!
# Runs of a labelled transition system

A run carries its history: every state it left, with the label it left it by.
Conditions on the steps of a run are conditions on that history, so one rule
gives both plain invariants and invariants of the runs whose steps all meet a
guard.
-/

namespace A3sBench.Library

universe u v

/-- Initial states and labelled steps. -/
structure System (σ : Type u) (ι : Type v) where
  init : σ → Prop
  step : σ → ι → σ → Prop

namespace System

variable {σ : Type u} {ι : Type v} {M : System σ ι}

/-- Finite runs, newest step first in the history. -/
inductive Run (M : System σ ι) : List (σ × ι) → σ → Prop where
  | start {s : σ} : M.init s → Run M [] s
  | next {h : List (σ × ι)} {s s' : σ} {a : ι} :
      Run M h s → M.step s a s' → Run M ((s, a) :: h) s'

/-- The steps of a history all meet the guard. -/
def Guarded (G : σ → ι → Prop) (h : List (σ × ι)) : Prop :=
  ∀ p ∈ h, G p.1 p.2

@[simp] theorem guarded_nil (G : σ → ι → Prop) : Guarded G [] := by
  simp [Guarded]

@[simp] theorem guarded_cons (G : σ → ι → Prop) (s : σ) (a : ι) (h : List (σ × ι)) :
    Guarded G ((s, a) :: h) ↔ G s a ∧ Guarded G h := by
  simp [Guarded]

/-- A property that holds initially and survives every guarded step holds at
the end of every run whose steps are guarded. -/
theorem Run.guarded_invariant {G : σ → ι → Prop} {I : σ → Prop}
    (hinit : ∀ s, M.init s → I s)
    (hstep : ∀ s a s', I s → G s a → M.step s a s' → I s')
    {h : List (σ × ι)} {s : σ} (hrun : Run M h s) (hG : Guarded G h) : I s := by
  induction hrun with
  | start h0 => exact hinit _ h0
  | next _ hs ih =>
    obtain ⟨hGs, hGh⟩ := (guarded_cons ..).mp hG
    exact hstep _ _ _ (ih hGh) hGs hs

theorem Run.invariant {I : σ → Prop} (hinit : ∀ s, M.init s → I s)
    (hstep : ∀ s a s', I s → M.step s a s' → I s')
    {h : List (σ × ι)} {s : σ} (hrun : Run M h s) : I s :=
  hrun.guarded_invariant (G := fun _ _ => True) hinit
    (fun s a s' hI _ hs => hstep s a s' hI hs) (fun _ _ => trivial)

/-- Every state a run left was itself reached by a shorter run, and its own
history is the rest of the history. -/
theorem Run.of_mem {h : List (σ × ι)} {s : σ} (hrun : Run M h s)
    {p : σ × ι} (hp : p ∈ h) : ∃ h', Run M h' p.1 ∧ h' <:+ h := by
  induction hrun with
  | start _ => cases hp
  | @next h s s' a hr hs ih =>
    rcases List.mem_cons.mp hp with rfl | hp
    · exact ⟨h, hr, List.suffix_cons _ _⟩
    · obtain ⟨h', hr', hsuf⟩ := ih hp
      exact ⟨h', hr', hsuf.trans (List.suffix_cons _ _)⟩

/-- What a run did before one of its steps is a run to the state it left there. -/
theorem Run.before {h₁ h₂ : List (σ × ι)} {s t : σ} {a : ι}
    (hrun : Run M (h₁ ++ (s, a) :: h₂) t) : Run M h₂ s := by
  induction h₁ generalizing t with
  | nil =>
    cases hrun with
    | next hr _ => exact hr
  | cons p h₁ ih =>
    cases hrun with
    | next hr _ => exact ih hr

theorem Run.step_of_mem {h : List (σ × ι)} {s : σ} (hrun : Run M h s) {p : σ × ι} (hp : p ∈ h) :
    ∃ s', M.step p.1 p.2 s' := by
  induction hrun with
  | start _ => cases hp
  | @next h s s' a _ hs ih =>
    rcases List.mem_cons.mp hp with rfl | hp
    · exact ⟨s', hs⟩
    · exact ih hp

/-- A reflexive and transitive relation that every guarded step respects, from
states that satisfy the invariant, relates every earlier state of the run to
its last one. -/
theorem Run.guarded_related {G : σ → ι → Prop} {I : σ → Prop} {R : σ → σ → Prop}
    (hinit : ∀ s, M.init s → I s)
    (hstep : ∀ s a s', I s → G s a → M.step s a s' → I s' ∧ R s s')
    (htrans : ∀ s t r, R s t → R t r → R s r)
    {h : List (σ × ι)} {s : σ} (hrun : Run M h s) (hG : Guarded G h) :
    ∀ p ∈ h, R p.1 s := by
  induction hrun with
  | start _ => simp
  | @next h s s' a hr hs ih =>
    obtain ⟨hGs, hGh⟩ := (guarded_cons ..).mp hG
    have hI : I s := hr.guarded_invariant hinit (fun s a s' h g t => (hstep s a s' h g t).1) hGh
    have hR : R s s' := (hstep s a s' hI hGs hs).2
    intro p hp
    rcases List.mem_cons.mp hp with rfl | hp
    · exact hR
    · exact htrans _ _ _ (ih hGh p hp) hR

/-- The history and the last state of applying `f` along a list of labels. -/
def replay (f : σ → ι → σ) (s : σ) (l : List ι) : List (σ × ι) × σ :=
  l.foldl (fun p a => ((p.2, a) :: p.1, f p.2 a)) ([], s)

/-- A system whose steps contain a function can be run along any labels. -/
theorem Run.replay {f : σ → ι → σ} (hstep : ∀ s a, M.step s a (f s a)) {s : σ} (hs : M.init s)
    (l : List ι) : Run M (System.replay f s l).1 (System.replay f s l).2 := by
  have hfrom : ∀ (l : List ι) (p : List (σ × ι) × σ), Run M p.1 p.2 →
      Run M (l.foldl (fun p a => ((p.2, a) :: p.1, f p.2 a)) p).1
        (l.foldl (fun p a => ((p.2, a) :: p.1, f p.2 a)) p).2 := by
    intro l
    induction l with
    | nil => exact fun p hp => hp
    | cons a l ih => exact fun p hp => ih _ (hp.next (hstep p.2 a))
  exact hfrom l ([], s) (.start hs)

end System

end A3sBench.Library
