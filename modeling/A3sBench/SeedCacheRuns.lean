import A3sBench.FileTree
import A3sBench.Library.Runs
import A3sBench.SeedCache
import Mathlib

/-!
# Concurrent calls on one seed cache

A call that found no valid entry removes what it meets at the cache path some
steps later. An entry published in between is removed with it; without such a
publication no valid entry is ever lost.
-/

namespace A3sBench.SeedCache

open Library Library.System

variable {Call Tree : Type} [DecidableEq Call]

/-- Any number of calls on a cache whose valid entry, if any, is complete. -/
def cacheSystem (Call : Type) [DecidableEq Call] (image : SeedImage Tree) :
    System (State Call Tree) (Call × Option String) where
  init s := (∀ t, image.valid s.cache = .ok (some t) → t = image.tree) ∧
    ∀ c, s.phases c = .inspectImage
  step s a s' := s' = step image s a

/-- Between having found no valid entry and being past the removal. -/
def inWindow : Phase Tree → Bool
  | .probe | .remove => true
  | _ => false

/-- The step of `a` puts a new entry at the cache path. -/
def Publishes (s : State Call Tree) (a : Call × Option String) : Prop :=
  s.phases a.1 = .publish ∧ renames s.cache a.2 = true

/-- No entry is published while a call is in its window. -/
def PublishesOutside (s : State Call Tree) (a : Call × Option String) : Prop :=
  Publishes s a → ∀ c, inWindow (s.phases c) = false

@[simp] theorem valid_missing (image : SeedImage Tree) : image.valid .missing = .ok none := rfl

@[simp] theorem valid_entry (image : SeedImage Tree) :
    image.valid (.directory image.entry) = .ok (some image.tree) := by
  simp [SeedImage.valid, validSeedCache, followed, isRealDirectory, readOptionalRegularFile,
    SeedImage.entry, bind, Except.bind]

@[simp] theorem cloneTree_missing : cloneTree (.missing : Node (Entry Tree)) =
    .error "cp -a failed: No such file or directory" := rfl

/-- A valid entry is cloned as it is. -/
theorem cloneTree_of_valid {image : SeedImage Tree} {cache : Node (Entry Tree)} {t : Tree}
    (h : image.valid cache = .ok (some t)) : cloneTree cache = .ok t := by
  simp only [SeedImage.valid, validSeedCache, Result.bind_ok_iff] at h
  obtain ⟨found, hfound, h⟩ := h
  cases found with
  | none => cases h
  | some entry =>
    obtain ⟨real, hreal, h⟩ := Result.bind_ok_iff.mp h
    split_ifs at h with hdir
    · obtain ⟨bytes, _, h⟩ := Result.bind_ok_iff.mp h
      cases bytes with
      | none => cases h
      | some bytes =>
        dsimp only at h
        split_ifs at h with hmarker
        · cases h
        · simp only [cloneTree, Result.bind_ok_iff, Result.okOr_ok_iff]
          exact ⟨_, hfound, entry, rfl, _, h, rfl⟩
    · cases h

theorem stepCall_cache (image : SeedImage Tree) (fault : Option String) (cache : Node (Entry Tree))
    (phase : Phase Tree) :
    (stepCall image fault cache phase).1 = cache ∨
      (phase = .remove ∧ (stepCall image fault cache phase).1 = .missing) ∨
      (phase = .publish ∧ renames cache fault = true ∧
        (stepCall image fault cache phase).1 = .directory image.entry) := by
  cases phase with
  | remove =>
    cases fault with
    | some error => exact .inl rfl
    | none =>
      cases cache with
      | missing | other => exact .inl rfl
      | directory entry | symlink target => exact .inr (.inl ⟨rfl, rfl⟩)
  | publish =>
    by_cases hrename : renames cache fault = true
    · exact .inr (.inr ⟨rfl, hrename, by simp [stepCall, hrename]⟩)
    · exact .inl (by simp [stepCall, hrename])
  | inspectImage | populate | clone => cases fault <;> exact .inl rfl
  | check | recheck error | probe => exact .inl (by simp only [stepCall]; split <;> rfl)
  | returned result => exact .inl rfl

/-- Whatever is cloned from the cache is the complete tree. -/
structure Complete (image : SeedImage Tree) (s : State Call Tree) : Prop where
  valid : ∀ t, image.valid s.cache = .ok (some t) → t = image.tree
  cloning : ∀ c, s.phases c = .clone → ∀ t, cloneTree s.cache = .ok t → t = image.tree
  returned : ∀ c t, s.phases c = .returned (.ok t) → t = image.tree

/-- A call starts to clone only where a valid entry is. -/
theorem valid_of_stepCall_clone {image : SeedImage Tree} {fault : Option String}
    {cache : Node (Entry Tree)} {phase : Phase Tree}
    (h : (stepCall image fault cache phase).2 = .clone) :
    ∃ t, image.valid (stepCall image fault cache phase).1 = .ok (some t) := by
  cases phase with
  | check | recheck error =>
    simp only [stepCall] at h ⊢
    split at h
    · cases h
    · cases h
    · rename_i t hvalid
      exact ⟨t, hvalid⟩
    · cases h
  | publish =>
    by_cases hrename : renames cache fault = true
    · exact ⟨image.tree, by simp [stepCall, hrename]⟩
    · simp [stepCall, hrename] at h
  | inspectImage | populate | clone => cases fault <;> cases h
  | probe | remove => simp only [stepCall] at h; split at h <;> cases h
  | returned result => cases h

/-- A call returns a tree only by cloning it. -/
theorem cloneTree_of_stepCall_returned {image : SeedImage Tree} {fault : Option String}
    {cache : Node (Entry Tree)} {phase : Phase Tree} {t : Tree}
    (h : (stepCall image fault cache phase).2 = .returned (.ok t)) :
    phase = .returned (.ok t) ∨ (phase = .clone ∧ cloneTree cache = .ok t) := by
  cases phase with
  | clone =>
    cases fault with
    | some error => cases h
    | none => exact .inr ⟨rfl, Phase.returned.inj h⟩
  | returned result => exact .inl h
  | inspectImage | populate => cases fault <;> cases h
  | publish => simp only [stepCall] at h; split at h <;> cases h
  | check | recheck error | probe | remove => simp only [stepCall] at h; split at h <;> cases h

/-- A call enters its window by finding no valid entry, and stays in it
without touching the cache. -/
theorem window_of_stepCall {image : SeedImage Tree} {fault : Option String}
    {cache : Node (Entry Tree)} {phase : Phase Tree}
    (h : inWindow (stepCall image fault cache phase).2 = true) :
    (stepCall image fault cache phase).1 = cache ∧
      (image.valid cache = .ok none ∨ inWindow phase = true) := by
  cases phase with
  | check =>
    simp only [stepCall] at h ⊢
    split at h
    · cases h
    · cases h
    · cases h
    · rename_i hvalid
      exact ⟨rfl, .inl hvalid⟩
  | probe => exact ⟨by simp only [stepCall]; split <;> rfl, .inr rfl⟩
  | inspectImage | populate | clone => cases fault <;> cases h
  | publish => simp only [stepCall] at h; split at h <;> cases h
  | remove | recheck error => simp only [stepCall] at h; split at h <;> cases h
  | returned result => cases h

theorem complete_step {image : SeedImage Tree} {s : State Call Tree} (hs : Complete image s)
    (a : Call × Option String) : Complete image (step image s a) := by
  have hvalid : ∀ t, image.valid (step image s a).cache = .ok (some t) → t = image.tree := by
    intro t ht
    rcases stepCall_cache image a.2 s.cache (s.phases a.1) with hsame | ⟨_, hgone⟩ | ⟨_, _, hnew⟩
    · exact hs.valid t (by simpa [step, hsame] using ht)
    · simp [step, hgone] at ht
    · simpa [step, hnew, eq_comm] using ht
  refine ⟨hvalid, ?_, ?_⟩
  · intro c hc t ht
    by_cases hca : c = a.1
    · subst hca
      obtain ⟨u, hu⟩ := valid_of_stepCall_clone (by simpa [step] using hc)
      obtain rfl := Except.ok.inj ((cloneTree_of_valid hu).symm.trans ht)
      exact hvalid u hu
    · have hold : s.phases c = .clone := by simpa [step, hca] using hc
      rcases stepCall_cache image a.2 s.cache (s.phases a.1) with hsame | ⟨_, hgone⟩ | ⟨_, _, hnew⟩
      · exact hs.cloning c hold t (by simpa [step, hsame] using ht)
      · simp [step, hgone] at ht
      · have hclone := cloneTree_of_valid (valid_entry image)
        rw [show (step image s a).cache = .directory image.entry from hnew, hclone] at ht
        exact (Except.ok.inj ht).symm
  · intro c t hc
    by_cases hca : c = a.1
    · subst hca
      rcases cloneTree_of_stepCall_returned (by simpa [step] using hc) with hold | ⟨hold, hclone⟩
      · exact hs.returned _ t hold
      · exact hs.cloning _ hold t hclone
    · exact hs.returned c t (by simpa [step, hca] using hc)

theorem complete_of_run {image : SeedImage Tree} {h : List (State Call Tree × (Call × Option String))}
    {s : State Call Tree} (hrun : Run (cacheSystem Call image) h s) : Complete image s := by
  refine hrun.invariant (fun s hinit => ?_) (fun s a s' hs hstep => ?_)
  · refine ⟨hinit.1, fun c hc => ?_, fun c t hc => ?_⟩
    · rw [hinit.2 c] at hc
      cases hc
    · rw [hinit.2 c] at hc
      cases hc
  · subst hstep
    exact complete_step hs a

/-- A call in its window faces no valid entry. -/
def WindowSound (image : SeedImage Tree) (s : State Call Tree) : Prop :=
  ∀ c, inWindow (s.phases c) = true → ∀ t, image.valid s.cache ≠ .ok (some t)

theorem windowSound_step {image : SeedImage Tree} {s : State Call Tree} (hs : WindowSound image s)
    {a : Call × Option String} (hG : PublishesOutside s a) : WindowSound image (step image s a) := by
  intro c hc t ht
  by_cases hca : c = a.1
  · subst hca
    obtain ⟨hsame, hwas⟩ := window_of_stepCall (by simpa [step] using hc)
    have ht' : image.valid s.cache = .ok (some t) := by simpa [step, hsame] using ht
    rcases hwas with hnone | hwas
    · rw [hnone] at ht'
      cases ht'
    · exact hs _ hwas t ht'
  · have hold : inWindow (s.phases c) = true := by simpa [step, hca] using hc
    rcases stepCall_cache image a.2 s.cache (s.phases a.1) with hsame | ⟨_, hgone⟩ | ⟨hp, hr, _⟩
    · exact hs c hold t (by simpa [step, hsame] using ht)
    · simp [step, hgone] at ht
    · exact absurd hold (by simp [hG ⟨hp, hr⟩ c])

/-- A valid entry survives every step of a state whose windows are sound. -/
theorem valid_step {image : SeedImage Tree} {s : State Call Tree} (hs : WindowSound image s)
    (a : Call × Option String) {t : Tree} (ht : image.valid s.cache = .ok (some t)) :
    ∃ t', image.valid (step image s a).cache = .ok (some t') := by
  rcases stepCall_cache image a.2 s.cache (s.phases a.1) with hsame | ⟨hp, _⟩ | ⟨_, _, hnew⟩
  · exact ⟨t, by simpa [step, hsame] using ht⟩
  · exact absurd ht (hs a.1 (by simp [hp, inWindow]) t)
  · exact ⟨image.tree, by simp [step, hnew]⟩

/-- What is asked of a run: an entry once valid stays, and calls that succeed
have cloned the complete seed tree. -/
def SeedSafe (image : SeedImage Tree) (h : List (State Call Tree × (Call × Option String)))
    (s : State Call Tree) : Prop :=
  (∀ p ∈ h, image.valid p.1.cache = .ok (some image.tree) →
    image.valid s.cache = .ok (some image.tree)) ∧
  ∀ c t, s.phases c = .returned (.ok t) → t = image.tree

/-- However the calls interleave and whatever fails, no valid entry is removed
as long as nothing is published inside a window. -/
theorem seedSafe_of_publishesOutside (image : SeedImage Tree)
    {h : List (State Call Tree × (Call × Option String))} {s : State Call Tree}
    (hrun : Run (cacheSystem Call image) h s) (hG : Guarded PublishesOutside h) :
    SeedSafe image h s := by
  have hinit : ∀ s, (cacheSystem Call image).init s → WindowSound image s := by
    intro s hinit c hc
    rw [hinit.2 c] at hc
    cases hc
  refine ⟨fun p hp hvalid => ?_, (complete_of_run hrun).returned⟩
  have hkept := hrun.guarded_related (I := WindowSound image)
    (R := fun s s' => (∃ t, image.valid s.cache = .ok (some t)) →
      ∃ t, image.valid s'.cache = .ok (some t))
    hinit ?_ (fun s t r hst htr hs => htr (hst hs)) hG
  · obtain ⟨t, ht⟩ := hkept p hp ⟨_, hvalid⟩
    rwa [(complete_of_run hrun).valid t ht] at ht
  · rintro s a s' hs hGs rfl
    exact ⟨windowSound_step hs hGs, fun ⟨t, ht⟩ => valid_step hs a ht⟩

/-- The condition is needed: a call whose window an entry was published in
removes that entry in its next steps. -/
theorem removed_of_published_in_window (image : SeedImage Tree) {s : State Call Tree}
    {a : Call × Option String} {c : Call} (ha : Publishes s a)
    (hc : inWindow (s.phases c) = true) :
    image.valid (step image s a).cache = .ok (some image.tree) ∧
      ∃ n, ((List.replicate n (c, none)).foldl (step image) (step image s a)).cache = .missing := by
  have hca : c ≠ a.1 := by
    rintro rfl
    simp [ha.1, inWindow] at hc
  have hcache : (step image s a).cache = .directory image.entry := by
    simp [step, stepCall, ha.1, ha.2]
  have hphase : (step image s a).phases c = s.phases c := by simp [step, hca]
  refine ⟨by rw [hcache, valid_entry], ?_⟩
  generalize step image s a = s' at hcache hphase
  cases hp : s.phases c with
  | probe => exact ⟨2, by simp [step, stepCall, hcache, hphase, hp, isRealDirectory, removeDirAll]⟩
  | remove => exact ⟨1, by simp [step, stepCall, hcache, hphase, hp, removeDirAll]⟩
  | _ => simp [hp, inWindow] at hc

section Runs

def alpine : SeedImage Directory :=
  { imageId := "sha256:5d0da3dc976460b72c77d94c8a1ad043720b0416bfc16c52c45d4847e53fadb6"
    seed := { image := "alpine:3.20", sourcePath := "/workspace", platform := none }
    tree := .file ⟨[97], by decide⟩ { content := [120], executable := false, links := 1 } .empty }

/-- Calls that have not started, on an empty cache. -/
def idle : State Nat Directory := { cache := .missing, phases := fun _ => .inspectImage }

theorem idle_init : (cacheSystem Nat alpine).init idle := by
  refine ⟨fun t ht => ?_, fun _ => rfl⟩
  cases ht

/-- Two calls one after the other, without faults. -/
def inTurn : List (Nat × Option String) :=
  List.replicate 6 (0, none) ++ List.replicate 3 (1, none)

theorem seedSafe_of_publishesOutside_inTurn :
    SeedSafe alpine (replay (step alpine) idle inTurn).1 (replay (step alpine) idle inTurn).2 := by
  refine seedSafe_of_publishesOutside alpine (Run.replay (fun _ _ => rfl) idle_init inTurn) ?_
  have hmissing : ∀ f, renames (.missing : Node (Entry Directory)) f = f.isNone := by
    simp [renames, vacant]
  have hclear : ∀ c : Nat, inWindow (if c = 0 then (.publish : Phase Directory) else .inspectImage)
      = false := by
    intro c
    split <;> rfl
  simpa [inTurn, replay, List.replicate, idle, step, stepCall, PublishesOutside, Publishes,
    isRealDirectory, hmissing, Function.update] using hclear

/-- Call 0 finds no entry and is overtaken by call 1, whose entry it removes. -/
def overtaken : List (Nat × Option String) :=
  List.replicate 2 (0, none) ++ List.replicate 6 (1, none) ++ List.replicate 2 (0, none)

theorem overtaken_not_seedSafe :
    Run (cacheSystem Nat alpine) (replay (step alpine) idle overtaken).1
        (replay (step alpine) idle overtaken).2 ∧
      ¬ SeedSafe alpine (replay (step alpine) idle overtaken).1
        (replay (step alpine) idle overtaken).2 := by
  refine ⟨Run.replay (fun _ _ => rfl) idle_init overtaken, fun hsafe => ?_⟩
  have hlost := hsafe.1 _ List.mem_cons_self rfl
  cases hlost

end Runs

end A3sBench.SeedCache
