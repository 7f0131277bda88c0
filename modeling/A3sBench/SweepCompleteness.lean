import A3sBench.StaleSweep

/-!
# What a sweep gets done

A sweep that ends in order has removed everything that dead processes had left
when it began. Until then each such resource is still to be listed, to be inspected
or to be removed, or it has gone.
-/

namespace A3sBench.StaleSweep

open Library Library.System

/-- The resource is among what the sweep has yet to deal with. -/
def Phase.Covers (d : Discovered) : Phase → Prop
  | .list kinds found => d.kind ∈ kinds ∨ d ∈ found
  | .inspect kind names kinds found => d.kind ∈ kinds ∨ d.kind = kind ∧ d.name ∈ names ∨ d ∈ found
  | .check groups => ∃ e ∈ groups, d ∈ e.2.2
  | .probe pending groups => d ∈ pending ∨ ∃ e ∈ groups, d ∈ e.2.2
  | .remove d' pending groups => d = d' ∨ d ∈ pending ∨ ∃ e ∈ groups, d ∈ e.2.2
  | .recheck d' pending groups => d = d' ∨ d ∈ pending ∨ ∃ e ∈ groups, d ∈ e.2.2
  | .finished (.ok ()) => False
  | .finished (.error _) => True

theorem mem_listRunLabeled {kind : Kind} {present : List Resource} {r : Resource}
    (hr : r ∈ present) (hkind : r.1.1 = kind) (hlabel : (r.2.lookup containerRunLabel).isSome) :
    r.1.2 ∈ listRunLabeled kind present := by
  rw [listRunLabeled, List.mem_dedup, List.mem_insertionSort]
  exact List.mem_map.mpr ⟨r, List.mem_filter.mpr ⟨hr, by simp [hkind, hlabel]⟩, rfl⟩

/-- Metadata that can be read was listed by its run label. -/
theorem runLabel_of_fromLabels {resource : String} {labels : Labels} {metadata : RunMetadata}
    (h : RunMetadata.fromLabels resource labels = .ok metadata) :
    (labels.lookup containerRunLabel).isSome := by
  simp only [RunMetadata.fromLabels, Result.bind_ok_iff] at h
  obtain ⟨runId, hrun, -⟩ := h
  rw [label, Result.okOr_ok_iff, Option.filter_eq_some_iff, Option.bind_eq_some_iff] at hrun
  obtain ⟨⟨value, hvalue, -⟩, -⟩ := hrun
  rw [hvalue]
  rfl

theorem groupResources_covers {found : List Discovered} {groups : List (String × Group)}
    (h : groupResources found = .ok groups) {d : Discovered} (hd : d ∈ found) :
    ∃ e ∈ groups, d ∈ e.2.2 := by
  simp only [groupResources, Result.bind_ok_iff, Result.pure_ok_iff] at h
  obtain ⟨unsorted, hfold, rfl⟩ := h
  have hempty : GroupsOf [] [] :=
    ⟨fun e he => absurd he List.not_mem_nil, fun e he => absurd he List.not_mem_nil,
      fun d hd => absurd hd List.not_mem_nil, List.nodup_nil⟩
  obtain ⟨e, he, hmem⟩ := (groupsOf_foldlM hempty hfold).covers d hd
  exact ⟨e, (List.mem_insertionSort _).mpr he, hmem⟩

theorem alive_of_active {w : World} {metadata : RunMetadata} {process : Identity}
    (halive : w.Alive process)
    (hactive :
      runMetadataIsActive metadata process.bootId (readPidStartTicks w.running) = .ok true) :
    w.Alive metadata.identity := by
  unfold runMetadataIsActive at hactive
  split_ifs at hactive with hboot
  · cases hactive
  · rw [not_not] at hboot
    simp only [readPidStartTicks_eq, Result.bind_ok_iff, Result.pure_ok_iff,
      decide_eq_true_eq] at hactive
    obtain ⟨start, hstart, rfl⟩ := hactive
    exact ⟨hboot.trans halive.1, Except.ok.inj hstart⟩

theorem lookup_ne_none {present : List Resource} {r : Resource} (hr : r ∈ present) :
    present.lookup r.1 ≠ none := by
  intro hnone
  rw [List.lookup_eq_none_iff] at hnone
  simpa using hnone r hr

section Step

variable {w : World} {s : Sweep} {r : Resource} {metadata : RunMetadata}

/-- While the resource is there, a step of the sweep keeps it in view. -/
theorem covers_advance (hw : WorldInv w) (hs : SweepInv w s) (halive : w.Alive s.process)
    (hr : r ∈ w.present) (hmetadata : RunMetadata.fromLabels r.1.2 r.2 = .ok metadata)
    (hdead : ¬ w.Alive metadata.identity)
    (hcovers : s.phase.Covers { kind := r.1.1, name := r.1.2, metadata := metadata })
    (answer : Answer) :
    (s.advance w.running w.present answer).phase.Covers
      { kind := r.1.1, name := r.1.2, metadata := metadata } := by
  generalize hd : ({ kind := r.1.1, name := r.1.2, metadata := metadata } : Discovered) = d
    at hcovers ⊢
  have hkind : d.kind = r.1.1 := by rw [← hd]
  have hname : d.name = r.1.2 := by rw [← hd]
  have hkey : d.key = r.1 := by rw [← hd]; rfl
  have hthere : w.present.lookup d.key ≠ none := hkey ▸ lookup_ne_none hr
  rw [Sweep.advance]
  split
  · rename_i found hphase
    rw [hphase] at hcovers
    split
    · trivial
    · rename_i groups hgroups
      rcases hcovers with hkinds | hfound
      · cases hkinds
      · exact groupResources_covers hgroups hfound
  · rename_i kind kinds found hphase
    rw [hphase] at hcovers
    split
    · trivial
    · rcases hcovers with hkinds | hfound
      · rcases List.mem_cons.mp hkinds with hfirst | hrest
        · refine .inr (.inl ⟨hfirst, ?_⟩)
          rw [hname]
          exact mem_listRunLabeled hr (hkind.symm.trans hfirst) (runLabel_of_fromLabels hmetadata)
        · exact .inl hrest
      · exact .inr (.inr hfound)
  · rename_i kind kinds found hphase
    rw [hphase] at hcovers
    rcases hcovers with hkinds | ⟨-, hnone⟩ | hfound
    · exact .inl hkinds
    · cases hnone
    · exact .inr hfound
  · rename_i kind name names kinds found hphase
    rw [hphase] at hcovers
    split
    · trivial
    · split
      · rename_i hlookup
        rcases hcovers with hkinds | ⟨hsame, hmem⟩ | hfound
        · exact .inl hkinds
        · rcases List.mem_cons.mp hmem with hhere | hmem
          · have hat : d.key = (kind, name) := by rw [← hsame, ← hhere]; rfl
            exact absurd (hat ▸ hlookup) hthere
          · exact .inr (.inl ⟨hsame, hmem⟩)
        · exact .inr (.inr hfound)
      · rename_i labels hlookup
        rw [Sweep.inspected]
        dsimp only
        split
        · trivial
        · rename_i d' hdiscover
          rcases hcovers with hkinds | ⟨hsame, hmem⟩ | hfound
          · exact .inl hkinds
          · rcases List.mem_cons.mp hmem with hhere | hmem
            · -- the name belongs to one resource, so the labels are the resource's own
              have hresource : r = ((kind, name), labels) :=
                List.inj_on_of_nodup_map hw.names (hw.present r hr)
                  (hw.present _ (mem_of_lookup hlookup)) (by rw [← hkey, ← hsame, ← hhere]; rfl)
              obtain ⟨-, metadata', hmetadata', rfl⟩ := discover_ok_iff.mp hdiscover
              rw [hresource] at hmetadata hd
              obtain rfl := Except.ok.inj (hmetadata.symm.trans hmetadata')
              exact .inr (.inr (List.mem_append_right _ (List.mem_singleton.mpr hd.symm)))
            · exact .inr (.inl ⟨hsame, hmem⟩)
          · exact .inr (.inr (List.mem_append_left _ hfound))
  · rename_i hphase
    rw [hphase] at hcovers
    obtain ⟨e, he, -⟩ := hcovers
    cases he
  · rename_i runId metadata' resources groups hphase
    have hgroup := hs.groups (runId, metadata', resources)
      (by rw [hphase]; exact List.mem_cons_self)
    rw [hphase] at hcovers
    obtain ⟨e, he, hmem⟩ := hcovers
    split
    · trivial
    · split
      · trivial
      · rename_i hactive
        rcases List.mem_cons.mp he with rfl | he
        · obtain ⟨-, hsame⟩ := hgroup d hmem
          have hmetadata' : metadata' = metadata := hsame.symm.trans (by rw [← hd])
          rw [hmetadata'] at hactive
          exact absurd (alive_of_active halive hactive) hdead
        · exact ⟨e, he, hmem⟩
      · rcases List.mem_cons.mp he with rfl | he
        · exact .inl ((List.mem_insertionSort _).mpr hmem)
        · exact .inr ⟨e, he, hmem⟩
  · rename_i groups hphase
    rw [hphase] at hcovers
    rcases hcovers with hnone | hgroups
    · cases hnone
    · exact hgroups
  · rename_i d' pending groups hphase
    rw [hphase] at hcovers
    split
    · trivial
    · split
      · rename_i hlookup
        rcases hcovers with hmem | hgroups
        · rcases List.mem_cons.mp hmem with rfl | hmem
          · exact absurd hlookup hthere
          · exact .inl hmem
        · exact .inr hgroups
      · split
        · rcases hcovers with hmem | hgroups
          · rcases List.mem_cons.mp hmem with hhere | hmem
            · exact .inl hhere
            · exact .inr (.inl hmem)
          · exact .inr (.inr hgroups)
        · trivial
  · rename_i d' pending groups hphase
    rw [hphase] at hcovers
    split
    · trivial
    · exact hcovers
  · rename_i d' pending groups hphase
    rw [hphase] at hcovers
    split
    · trivial
    · split
      · rename_i hlookup
        rcases hcovers with rfl | hcovers
        · exact absurd hlookup hthere
        · exact hcovers
      · trivial
  · rename_i result hphase
    rw [hphase] at hcovers
    exact hcovers

end Step

/-! ## From the beginning of a sweep to its end -/

/-- A sweep that began while a dead process had left the resource. -/
structure Sweeps (w : World) (i : Nat) (r : Resource) (metadata : RunMetadata) : Prop where
  made : r ∈ w.made
  exited : Exited w metadata.identity
  covers : ∃ s, w.sweeps i = some s ∧ (r ∈ w.present →
    s.phase.Covers { kind := r.1.1, name := r.1.2, metadata := metadata })

theorem present_of_step {w w' : World} {e : Event} (h : w.step e w') {r : Resource}
    (hmade : r ∈ w.made) (hr : r ∈ w'.present) : r ∈ w.present := by
  have hadded : ∀ r' : Resource, w.Unused r'.1 → r ∈ r' :: w.present → r ∈ w.present := by
    intro r' hunused hmem
    rcases List.mem_cons.mp hmem with rfl | hmem
    · exact absurd rfl (hunused r hmade)
    · exact hmem
  cases e with
  | start pid stat =>
    obtain ⟨-, -, rfl⟩ := h
    exact hr
  | exit pid =>
    obtain rfl := h
    exact hr
  | reboot bootId =>
    obtain ⟨-, rfl⟩ := h
    exact hr
  | create key metadata =>
    obtain ⟨-, -, hunused, rfl⟩ := h
    exact hadded _ hunused hr
  | appear r' =>
    obtain ⟨hunused, -, rfl⟩ := h
    exact hadded r' hunused hr
  | vanish key =>
    obtain rfl := h
    exact List.mem_of_mem_filter hr
  | begin i process =>
    obtain ⟨-, -, rfl⟩ := h
    exact hr
  | advance i answer =>
    obtain ⟨s, -, -, rfl⟩ := h
    exact leaves_subset r hr

theorem Sweeps.step {w w' : World} {i : Nat} {r : Resource} {metadata : RunMetadata}
    (h : Sweeps w i r metadata) (hinv : Inv w)
    (hmetadata : RunMetadata.fromLabels r.1.2 r.2 = .ok metadata) {e : Event}
    (hstep : w.step e w') : Sweeps w' i r metadata := by
  have hadvances := advances_step hstep
  have hpresent := fun hr => present_of_step hstep h.made (r := r) hr
  obtain ⟨s, hs, hcovers⟩ := h.covers
  refine ⟨hadvances.made r h.made, hadvances.exited h.exited, ?_⟩
  -- a sweep that takes no step is carried over
  have hkept : w'.sweeps i = w.sweeps i → ∃ s, w'.sweeps i = some s ∧ (r ∈ w'.present →
      s.phase.Covers { kind := r.1.1, name := r.1.2, metadata := metadata }) :=
    fun hsame => ⟨s, hsame.trans hs, fun hr => hcovers (hpresent hr)⟩
  cases e with
  | start pid stat =>
    obtain ⟨-, -, rfl⟩ := hstep
    exact hkept rfl
  | exit pid =>
    obtain rfl := hstep
    exact hkept rfl
  | reboot bootId =>
    obtain ⟨-, rfl⟩ := hstep
    exact hkept rfl
  | create key metadata =>
    obtain ⟨-, -, -, rfl⟩ := hstep
    exact hkept rfl
  | appear r' =>
    obtain ⟨-, -, rfl⟩ := hstep
    exact hkept rfl
  | vanish key =>
    obtain rfl := hstep
    exact hkept rfl
  | begin j process =>
    obtain ⟨hfree, -, rfl⟩ := hstep
    refine hkept (Function.update_of_ne ?_ ..)
    rintro rfl
    rw [hfree] at hs
    cases hs
  | advance j answer =>
    obtain ⟨s', hs', halive, rfl⟩ := hstep
    by_cases hj : i = j
    · subst hj
      obtain rfl := Option.some.inj (hs.symm.trans hs')
      refine ⟨_, Function.update_self .., fun hr => ?_⟩
      have hthere := hpresent hr
      exact covers_advance hinv.world (hinv.sweeps i s hs) halive hthere hmetadata h.exited.2
        (hcovers hthere) answer
    · exact hkept (Function.update_of_ne hj ..)

theorem sweeps_of_run {history : List (World × Event)} {w w₀ : World} {i : Nat}
    {process : Identity} {r : Resource} {metadata : RunMetadata}
    (hrun : Run sweepSystem history w) (hbegin : (w₀, Event.begin i process) ∈ history)
    (hr : r ∈ w₀.present) (hmetadata : RunMetadata.fromLabels r.1.2 r.2 = .ok metadata)
    (hexited : Exited w₀ metadata.identity) : Sweeps w i r metadata := by
  induction hrun with
  | start _ => cases hbegin
  | @next history s s' e hprefix hstep ih =>
    rcases List.mem_cons.mp hbegin with heq | hbefore
    · obtain ⟨rfl, rfl⟩ := Prod.ext_iff.mp heq
      have hworld := (inv_of_run hprefix).world
      obtain ⟨-, -, rfl⟩ := hstep
      refine ⟨hworld.present r hr, hexited, _, Function.update_self .., fun _ => .inl ?_⟩
      rcases r.1.1 with _ | _ | _ <;> simp
    · exact (ih hbefore).step (inv_of_run hprefix) hmetadata hstep

/-- In every interleaving, a sweep that ends in order leaves nothing of what carried the metadata
of a dead process when the sweep began. -/
theorem sweep_removes_dead_runs {history : List (World × Event)} {w : World}
    (hrun : Run sweepSystem history w) {w₀ : World} {i : Nat} {process : Identity}
    (hbegin : (w₀, Event.begin i process) ∈ history) {s : Sweep} (hs : w.sweeps i = some s)
    (hdone : s.phase = .finished (.ok ())) :
    ∀ r ∈ w₀.present, ∀ metadata, RunMetadata.fromLabels r.1.2 r.2 = .ok metadata →
      Exited w₀ metadata.identity → ∀ r' ∈ w.present, r'.1 ≠ r.1 := by
  intro r hr metadata hmetadata hexited r' hr' hkey
  have hsweeps := sweeps_of_run hrun hbegin hr hmetadata hexited
  have hworld := (inv_of_run hrun).world
  obtain rfl : r' = r :=
    List.inj_on_of_nodup_map hworld.names (hworld.present r' hr') hsweeps.made hkey
  obtain ⟨s', hs', hcovers⟩ := hsweeps.covers
  obtain rfl := Option.some.inj (hs.symm.trans hs')
  have hnothing := hcovers hr'
  rw [hdone] at hnothing
  exact hnothing

theorem sweepOn_extends {history : List (World × Event)} {w : World}
    (hrun : Run sweepSystem history w) {s : Sweep} (hs : w.sweeps 0 = some s)
    (halive : w.Alive s.process) (n : Nat) :
    ∃ later, Run sweepSystem (later ++ history) (w.sweepOn n) ∧
      ∃ s', (w.sweepOn n).sweeps 0 = some s' ∧ (w.sweepOn n).Alive s'.process := by
  induction n with
  | zero => exact ⟨[], hrun, s, hs, halive⟩
  | succ n ih =>
    obtain ⟨later, hrun', s', hs', halive'⟩ := ih
    rw [World.sweepOn]
    simp only [hs']
    have hnext : Run sweepSystem
        ((w.sweepOn n, .advance 0 { fault := none, removes := true }) :: (later ++ history)) _ :=
      hrun'.next ⟨s', hs', halive', rfl⟩
    exact ⟨_ :: later, hnext, _, Function.update_self .., (advance_process ..).symm ▸ halive'⟩

/-- The sweep after the reboot runs to its end. -/
theorem sweep_removes_dead_runs_sample :
    ∃ s, (sweeping.sweepOn 14).sweeps 0 = some s ∧ s.phase = .finished (.ok ()) ∧
      ∀ r ∈ afterReboot.present, ∀ metadata, RunMetadata.fromLabels r.1.2 r.2 = .ok metadata →
        Exited afterReboot metadata.identity →
          ∀ r' ∈ (sweeping.sweepOn 14).present, r'.1 ≠ r.1 := by
  obtain ⟨later, hrun, s, hs, -⟩ := sweepOn_extends sweeping_run rfl ⟨rfl, rfl⟩ 14
  have hphase : ((sweeping.sweepOn 14).sweeps 0).map Sweep.phase = some (.finished (.ok ())) := rfl
  rw [hs, Option.map_some, Option.some.injEq] at hphase
  exact ⟨s, hs, hphase, sweep_removes_dead_runs hrun
    (List.mem_append_right _ (List.mem_singleton_self _)) hs hphase⟩

end A3sBench.StaleSweep
