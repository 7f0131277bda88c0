import A3sBench.CodexHomeInvariant

/-!
# Homes that do not disturb each other

While no home is taken or made under a sweep that is looking at it, and none is
found stale before it is made, every staging succeeds, and sweeps remove the
stale homes with a marker only.
-/

namespace A3sBench.CodexHomes

open Library Library.System

theorem Inv.begin {h : History} {w : World} {i : Nat} {c : Call} (p : World × Event)
    (hinv : Inv h w) (hi : w.calls i = none) (hmaking : c.phase.making = none)
    (hremoving : c.phase.removing = none) (hrelies : PhaseInv h w.homes c.now c.phase)
    (hcleaning : ∀ n id, c.phase.looking = some (.cleanup id, n) →
      Numbered w c.pid n ∧ ∀ j c', w.calls j = some c' → c'.phase.making ≠ some n) :
    Inv (p :: h) (w.become i c c.phase) where
  fresh := fun name home hhome => (hinv.fresh name home hhome).trans (Nat.lt_succ_self _)
  markers := hinv.markers
  phases := by
    intro j c' hj
    obtain ⟨rfl, rfl⟩ | ⟨-, hj⟩ := calls_become hj
    · exact hrelies.history p
    · exact (hinv.phases j c' hj).history p
  making := by
    intro j c' hj n heq
    obtain ⟨rfl, rfl⟩ | ⟨-, hj⟩ := calls_become hj
    · cases hmaking.symm.trans heq
    · exact hinv.making j c' hj n heq
  cleaning := by
    intro j c' hj n id heq
    obtain ⟨rfl, rfl⟩ | ⟨-, hj⟩ := calls_become hj
    · exact (hcleaning n id heq).1
    · exact hinv.cleaning j c' hj n id heq
  apart := by
    intro a b ca cb hab ha hb n heq
    obtain ⟨rfl, rfl⟩ | ⟨-, hca⟩ := calls_become ha
    · cases hmaking.symm.trans heq
    · obtain ⟨rfl, rfl⟩ | ⟨-, hcb⟩ := calls_become hb
      · exact ⟨fun hsome => (by cases hmaking.symm.trans hsome),
          fun id hlooking => (hcleaning n id hlooking).2 a ca hca heq⟩
      · exact hinv.apart a b ca cb hab hca hcb n heq
  spared := by
    intro a b ca cb ha hb n hworking
    obtain ⟨rfl, rfl⟩ | ⟨-, hca⟩ := calls_become ha
    · cases hmaking.symm.trans (working_making hworking)
    · obtain ⟨rfl, rfl⟩ | ⟨-, hcb⟩ := calls_become hb
      · exact fun heq => by cases hremoving.symm.trans heq
      · exact hinv.spared a b ca cb hca hcb n hworking
  live := by
    intro l hl
    obtain ⟨hnumbered, hsame, hfree⟩ := hinv.live l hl
    refine ⟨hnumbered, hsame, fun j c' hj heq => ?_⟩
    obtain ⟨rfl, rfl⟩ | ⟨-, hj⟩ := calls_become hj
    · cases hmaking.symm.trans heq
    · exact hfree j c' hj heq
  names := hinv.names

theorem Inv.exit {h : History} {w : World} (p : World × Event) (hinv : Inv h w) (pid : UInt32) :
    Inv (p :: h) (w.exit pid) := by
  have hcalls : ∀ {i c}, (w.exit pid).calls i = some c → w.calls i = some c ∧ c.pid ≠ pid := by
    intro i c hi
    obtain ⟨hi, hpid⟩ := Option.filter_eq_some_iff.mp hi
    exact ⟨hi, of_decide_eq_true hpid⟩
  have hkept : ∀ {pid' name}, pid' ≠ pid → Numbered w pid' name → Numbered (w.exit pid) pid' name := by
    intro pid' name hne hnumbered
    exact hnumbered.mono fun sequence hsequence =>
      ⟨sequence, le_refl _, (Function.update_of_ne hne ..).trans hsequence⟩
  exact
    { fresh := hinv.fresh
      markers := hinv.markers
      phases := fun i c hi => (hinv.phases i c (hcalls hi).1).history p
      making := fun i c hi n heq => hkept (hcalls hi).2 (hinv.making i c (hcalls hi).1 n heq)
      cleaning := fun i c hi n id heq =>
        hkept (hcalls hi).2 (hinv.cleaning i c (hcalls hi).1 n id heq)
      apart := fun i j c c' hij hi hj => hinv.apart i j c c' hij (hcalls hi).1 (hcalls hj).1
      spared := fun i j c c' hi hj => hinv.spared i j c c' (hcalls hi).1 (hcalls hj).1
      live := by
        intro l hl
        obtain ⟨hl, hpid⟩ := List.mem_filter.mp hl
        obtain ⟨hnumbered, hsame, hfree⟩ := hinv.live l hl
        exact ⟨hkept (of_decide_eq_true hpid) hnumbered, hsame,
          fun i c hi => hfree i c (hcalls hi).1⟩
      names := hinv.names.sublist (List.filter_sublist.map _) }

theorem Inv.step {h : History} {w w' : World} {e : Event} (hinv : Inv h w) (hspares : Spares w e)
    (hstep : w.step e = some w') : Inv ((w, e) :: h) w' := by
  cases e with
  | start pid =>
    rw [World.step] at hstep
    split at hstep
    · rename_i hnone
      obtain rfl := Option.some.inj hstep
      have hmono : ∀ {pid' name}, Numbered w pid' name →
          Numbered { w with running := Function.update w.running pid (some 0) } pid' name := by
        intro pid' name hnumbered
        refine hnumbered.mono fun sequence hsequence => ?_
        have hne : pid' ≠ pid := by
          rintro rfl
          cases hnone.symm.trans hsequence
        exact ⟨sequence, le_refl _, (Function.update_of_ne hne ..).trans hsequence⟩
      exact
        { hinv with
          phases := fun i c hi => (hinv.phases i c hi).history _
          making := fun i c hi n heq => hmono (hinv.making i c hi n heq)
          cleaning := fun i c hi n id heq => hmono (hinv.cleaning i c hi n id heq)
          live := fun l hl => ⟨hmono (hinv.live l hl).1, (hinv.live l hl).2⟩ }
    · cases hstep
  | exit pid =>
    obtain rfl := Option.some.inj hstep
    exact hinv.exit _ pid
  | tick clock =>
    obtain rfl := Option.some.inj hstep
    exact { hinv with phases := fun i c hi => (hinv.phases i c hi).history _ }
  | stage i pid auth =>
    rw [World.step] at hstep
    split at hstep
    · rename_i hfree
      obtain rfl := Option.some.inj hstep
      exact Inv.begin (c := { pid := pid, auth := auth, now := w.clock, phase := .entry }) _ hinv
        (Option.isNone_iff_eq_none.mp hfree.1) rfl rfl trivial fun n id heq => by cases heq
    · cases hstep
  | cleanup i l =>
    rw [World.step] at hstep
    split at hstep
    · rename_i hfree
      obtain rfl := Option.some.inj hstep
      obtain ⟨hnumbered, hsame, hmaking⟩ := hinv.live l hfree.2
      have herased : Inv h { w with live := w.live.erase l } :=
        { hinv with
          live := fun l' hl' => hinv.live l' (List.mem_of_mem_erase hl')
          names := hinv.names.sublist (List.erase_sublist.map _) }
      refine Inv.begin (c := { pid := l.pid, auth := [], now := w.clock, phase := _ }) _ herased
        (Option.isNone_iff_eq_none.mp hfree.1) rfl rfl hsame fun n id heq => ?_
      obtain ⟨-, rfl⟩ := Prod.mk.inj (Option.some.inj heq)
      exact ⟨hnumbered, hmaking⟩
    · cases hstep
  | advance i choice =>
    rw [World.step, Option.map_eq_some_iff] at hstep
    obtain ⟨c, hi, rfl⟩ := hstep
    exact hinv.advance choice hi (hspares c hi)

theorem World.Initial.inv {w : World} (h : w.Initial) : Inv [] w where
  fresh := h.fresh
  markers := h.markers
  phases := fun i c hi => by cases (h.calls i).symm.trans hi
  making := fun i c hi => by cases (h.calls i).symm.trans hi
  cleaning := fun i c hi => by cases (h.calls i).symm.trans hi
  apart := fun i j c c' _ hi => by cases (h.calls i).symm.trans hi
  spared := fun i j c c' hi => by cases (h.calls i).symm.trans hi
  live := fun l hl => by
    rw [h.live] at hl
    cases hl
  names := by
    rw [h.live]
    exact List.nodup_nil

theorem inv_of_run {h : History} {w : World} (hrun : Run homeSystem h w)
    (hspares : Guarded Spares h) : Inv h w := by
  induction hrun with
  | start hinit => exact World.Initial.inv hinit
  | next _ hstep ih =>
    obtain ⟨hspare, hrest⟩ := (guarded_cons ..).mp hspares
    exact (ih hrest).step hspare hstep

/-! ## Every interleaving -/

/-- The staging has returned an error. -/
def Phase.failed : Phase → Bool
  | .done (.error _) => true
  | _ => false

/-- The home that the call made, or cleans up, as the inode that was staged. -/
def Phase.owns : Phase → Option (Nat × String)
  | .secure _ name id _ => some (id, name)
  | .temporary name id _ => some (id, name)
  | .fill name id _ => some (id, name)
  | .unwind _ name id _ => some (id, name)
  | .remove (.cleanup id) name _ => some (id, name)
  | _ => none

/-- The home had the marker in it and was older than the stale age when the sweep began. -/
structure Stale (h : History) (c : Call) (name : String) (id : Nat) : Prop where
  aged : ∃ p ∈ h, ∃ home, p.1.homes name = some home ∧ home.id = id ∧
    staleHomeAge < c.now - home.modified
  carried : Carried h name id

structure Undisturbed (h : History) (w : World) : Prop where
  succeeds : ∀ i c, w.calls i = some c → c.phase.failed = false
  apart : (w.live.map Live.name).Nodup
  /-- Whoever changes a home owns it, or found it stale. -/
  spared : ∀ e w' name home, w.step e = some w' → w.homes name = some home →
    w'.homes name ≠ some home → ∃ i choice c, e = .advance i choice ∧ w.calls i = some c ∧
      (c.phase.owns = some (home.id, name) ∨ Stale h c name home.id)

/-- A step changes no home but the one it is at. -/
theorem advance_homes {w : World} {i : Nat} {c : Call} {choice : Choice} {name : String}
    (hmaking : c.phase.making ≠ some name)
    (hremove : ∀ purpose frames, c.phase ≠ .remove purpose name frames) :
    (w.advance i c choice).homes name = w.homes name := by
  have hset : ∀ {n slot phase}, n ≠ name →
      ((w.setHome n slot).become i c phase).homes name = w.homes name :=
    fun hne => Function.update_of_ne (Ne.symm hne) ..
  have hne : ∀ {n}, c.phase.making = some n → n ≠ name := by
    rintro n hn rfl
    exact hmaking hn
  rw [World.advance]
  cases hphase : c.phase with
  | remove purpose n frames =>
    have hother : n ≠ name := by
      rintro rfl
      exact hremove purpose frames hphase
    dsimp only
    split
    · rfl
    · exact hset hother
    · exact hset hother
  | make tries n =>
    dsimp only
    split
    · rfl
    · exact hset (hne (by rw [hphase]; rfl))
  | secure unwinds n id rest =>
    cases rest with
    | nil => rfl
    | cons call rest =>
      dsimp only
      split
      · rfl
      · exact hset (hne (by rw [hphase]; rfl))
  | temporary n id tries =>
    dsimp only
    split
    · exact hset (hne (by rw [hphase]; rfl))
    · rfl
  | fill n id rest =>
    cases rest with
    | nil => rfl
    | cons call rest =>
      dsimp only
      split
      · rfl
      · exact hset (hne (by rw [hphase]; rfl))
  | unwind errno n id frames =>
    dsimp only
    split
    · rfl
    · exact hset (hne (by rw [hphase]; rfl))
    · exact hset (hne (by rw [hphase]; rfl))
  | _ =>
    dsimp only
    repeat' split
    all_goals rfl

theorem step_homes {w w' : World} {e : Event} {name : String} (hstep : w.step e = some w')
    (hchanged : w'.homes name ≠ w.homes name) :
    ∃ i choice c, e = .advance i choice ∧ w.calls i = some c ∧
      (c.phase.making = some name ∨ ∃ purpose frames, c.phase = .remove purpose name frames) := by
  cases e with
  | advance i choice =>
    rw [World.step, Option.map_eq_some_iff] at hstep
    obtain ⟨c, hi, rfl⟩ := hstep
    refine ⟨i, choice, c, rfl, hi, ?_⟩
    by_contra hnone
    push Not at hnone
    exact hchanged (advance_homes hnone.1 hnone.2)
  | exit pid | tick clock =>
    obtain rfl := Option.some.inj hstep
    exact absurd rfl hchanged
  | start pid | stage i pid auth | cleanup i l =>
    rw [World.step] at hstep
    split at hstep
    · obtain rfl := Option.some.inj hstep
      exact absurd rfl hchanged
    · cases hstep

/-- In every interleaving whose steps leave the sweeps of others alone, every staging succeeds, no
two live homes share a path, and only stale homes with a marker are changed by others. -/
theorem homes_undisturbed {h : History} {w : World} (hrun : Run homeSystem h w)
    (hspares : Guarded Spares h) : Undisturbed h w := by
  have hinv := inv_of_run hrun hspares
  refine ⟨fun i c hi => ?_, hinv.names, fun e w' name home hstep hhome hchanged => ?_⟩
  · have hrelies := hinv.phases i c hi
    cases hphase : c.phase with
    | done result =>
      rw [hphase] at hrelies
      cases result with
      | error errno => exact hrelies.elim
      | ok value => rfl
    | _ => rfl
  · rw [← hhome] at hchanged
    obtain ⟨i, choice, c, rfl, hi, hat⟩ := step_homes hstep hchanged
    refine ⟨i, choice, c, rfl, hi, ?_⟩
    have hrelies := hinv.phases i c hi
    have hholds : ∀ {id t}, Holds (w.homes name) id t → id = home.id := by
      rintro id t ⟨home', hhome', rfl, -⟩
      exact congrArg Home.id (Option.some.inj (hhome'.symm.trans hhome))
    obtain hmaking | ⟨purpose, frames, hphase⟩ := hat
    · cases hphase : c.phase with
      | make tries n =>
        rw [hphase] at hmaking
        obtain rfl := Option.some.inj hmaking
        -- the name is taken, so nothing is made
        have hkept : (w.advance i c choice).homes n = w.homes n := by
          rw [World.advance, hphase]
          simp only [hhome]
          exact hhome
        rw [World.step, hi] at hstep
        obtain rfl := Option.some.inj hstep
        exact absurd hkept hchanged
      | secure unwinds n id rest | temporary n id tries =>
        rw [hphase] at hmaking hrelies
        obtain rfl := Option.some.inj hmaking
        left
        rw [Phase.owns]
        first | rw [hholds hrelies] | rw [hholds hrelies.1]
      | fill n id rest =>
        rw [hphase] at hmaking hrelies
        obtain rfl := Option.some.inj hmaking
        obtain ⟨t, hhold, -⟩ := hrelies
        left
        rw [Phase.owns, hholds hhold]
      | unwind errno n id frames =>
        rw [hphase] at hrelies
        exact hrelies.elim
      | _ =>
        rw [hphase] at hmaking
        cases hmaking
    · rw [hphase] at hrelies
      cases purpose with
      | sweep seen =>
        obtain ⟨⟨p, hp, before, hbefore, hid, hmodified⟩, hsame, hstale, hcarried, -⟩ := hrelies
        have hseen := hsame home hhome
        refine .inr ⟨⟨p, hp, before, hbefore, hid.trans hseen.symm, ?_⟩, hseen ▸ hcarried⟩
        rwa [hmodified]
      | cleanup id =>
        left
        rw [hphase, Phase.owns, ← hrelies home hhome]

/-! ## Two sweeps of one home -/

/-- A home that an earlier process left, and nobody at it for more than a day. -/
def staleWorld : World where
  owner := 0
  clock := 100000
  next := 1
  homes := fun name =>
    if name = homeName 7 0 then
      some { id := 0, owner := 0, modified := 0,
             tree := (PathTree.empty.create [ownerMarker] (.file ownerMarkerContent)).toOption }
    else none
  running := fun _ => none
  calls := fun _ => none
  live := []

theorem staleWorld_markers : MarkersAreFiles staleWorld.homes := by
  intro name content hlookup
  obtain hname | hname := eq_or_ne name (homeName 7 0)
  · have hfile : lookup (staleWorld.homes (homeName 7 0)) [ownerMarker] =
        some (.file ownerMarkerContent) := by decide
    rw [hname, hfile] at hlookup
    exact ⟨ownerMarkerContent, (Option.some.inj hlookup).symm⟩
  · have hnone : staleWorld.homes name = none := if_neg hname
    rw [hnone] at hlookup
    cases hlookup

theorem staleWorld_initial : staleWorld.Initial where
  fresh := by
    intro name home hhome
    obtain hname | hname := eq_or_ne name (homeName 7 0)
    · obtain rfl := Option.some.inj ((if_pos hname).symm.trans hhome)
      exact Nat.zero_lt_one
    · cases (if_neg hname : staleWorld.homes name = none).symm.trans hhome
  markers := staleWorld_markers
  running := fun _ => rfl
  calls := fun _ => rfl
  live := rfl

/-- The next step of a call, at the stale home where it looks for one. -/
def goOn (i : Nat) : Event := .advance i { entry := some (homeName 7 0), number := 0 }

/-- The second call removes the home that the first one has just seen. -/
def twoSweeps : List Event :=
  [.start 1, .start 2, .stage 0 1 [], .stage 1 2 [], goOn 0, goOn 0] ++
    List.replicate 9 (goOn 1) ++ [goOn 0]

theorem run_foldlM {events : List Event} {h : History} {w w' : World}
    (hrun : Run homeSystem h w) (hfold : events.foldlM World.step w = some w') :
    ∃ h', Run homeSystem h' w' := by
  induction events generalizing h w with
  | nil =>
    obtain rfl := Option.some.inj hfold
    exact ⟨h, hrun⟩
  | cons e events ih =>
    rw [List.foldlM_cons, Option.bind_eq_bind, Option.bind_eq_some_iff] at hfold
    obtain ⟨next, hstep, hrest⟩ := hfold
    exact ih (hrun.next hstep) hrest

/-- A home that is removed between the two looks of another sweep ends that sweep's staging. -/
theorem vanished_home_fails : ¬ ∀ h w, Run homeSystem h w → Undisturbed h w := by
  intro hall
  have hfails : ((twoSweeps.foldlM World.step staleWorld).bind fun w => w.calls 0).map
      (fun c => c.phase.failed) = some true := by decide
  obtain ⟨c, hcalls, hfailed⟩ := Option.map_eq_some_iff.mp hfails
  obtain ⟨w, hfold, hi⟩ := Option.bind_eq_some_iff.mp hcalls
  obtain ⟨h, hrun⟩ := run_foldlM (.start staleWorld_initial) hfold
  cases ((hall h w hrun).succeeds 0 c hi).symm.trans hfailed

/-- The call neither makes a home nor takes a number. -/
def Phase.onlyLooks : Phase → Bool
  | .allocate _ => false
  | phase => phase.making.isNone

/-- The first call goes on while it only looks. -/
def World.looksOn (w : World) : Nat → Option World
  | 0 => some w
  | n + 1 => (w.looksOn n).bind fun w =>
    if (w.calls 0).all (fun c => c.phase.onlyLooks) then w.step (goOn 0) else none

/-- A sweep that nobody else is around for leaves everyone alone. -/
theorem callSpares_alone {w : World} {c : Call} (halone : ∀ i c', w.calls i = some c' → c' = c)
    (hlooks : c.phase.onlyLooks = true) : CallSpares w c where
  home := by
    intro name htarget i c' seen hi howned
    rw [← halone i c' hi, howned] at htarget
    cases htarget
  marker := by
    intro name htarget i c' seen hi hread
    rw [← halone i c' hi, hread] at htarget
    cases htarget
  back := by
    intro tries name hmake
    rw [hmake] at hlooks
    cases hlooks
  finished := by
    intro seen name hread _ i c' hi hworking
    rw [halone i c' hi, hread] at hworking
    cases hworking
  room := by
    intro tries name hmake
    rw [hmake] at hlooks
    cases hlooks
  sequence := by
    intro tries sequence hallocate
    rw [hallocate] at hlooks
    cases hlooks

theorem advance_calls {w : World} {i j : Nat} {c : Call} {choice : Choice} (hj : j ≠ i) :
    (w.advance i c choice).calls j = w.calls j := by
  have hother : ∀ (w : World) (phase : Phase), (w.become i c phase).calls j = w.calls j :=
    fun w phase => Function.update_of_ne hj ..
  unfold World.advance
  repeat' split
  all_goals first | rfl | exact hother _ _ | skip
  dsimp only
  split <;> exact hother _ _

theorem looksOn_run {h : History} {w w' : World} {n : Nat} (hrun : Run homeSystem h w)
    (hspares : Guarded Spares h) (halone : ∀ i, i ≠ 0 → w.calls i = none)
    (hlooks : w.looksOn n = some w') :
    ∃ h', Run homeSystem h' w' ∧ Guarded Spares h' ∧ ∀ i, i ≠ 0 → w'.calls i = none := by
  induction n generalizing w' with
  | zero =>
    obtain rfl := Option.some.inj hlooks
    exact ⟨h, hrun, hspares, halone⟩
  | succ n ih =>
    obtain ⟨before, hbefore, hstep⟩ := Option.bind_eq_some_iff.mp hlooks
    obtain ⟨h', hrun', hspares', halone'⟩ := ih hbefore
    split at hstep
    · rename_i hlook
      have hadvance := hstep
      rw [goOn, World.step, Option.map_eq_some_iff] at hadvance
      obtain ⟨c, hc, rfl⟩ := hadvance
      rw [hc] at hlook
      have hsingle : ∀ i c', before.calls i = some c' → c' = c := by
        intro i c' hi
        obtain hzero | hzero := eq_or_ne i 0
        · exact Option.some.inj (hi.symm.trans (hzero ▸ hc))
        · cases (halone' i hzero).symm.trans hi
      refine ⟨_, hrun'.next hstep, (guarded_cons ..).mpr ⟨fun c' hc' => ?_, hspares'⟩, fun i hi => ?_⟩
      · obtain rfl := hsingle 0 c' hc'
        exact callSpares_alone hsingle hlook
      · exact (advance_calls hi).trans (halone' i hi)
    · cases hstep

/-- One process, and its call that stages a home. -/
def oneSweep : World :=
  ({ staleWorld with running := Function.update staleWorld.running 1 (some 0) }).become 0
    { pid := 1, auth := [], now := 100000, phase := .entry } .entry

theorem oneSweep_run :
    Run homeSystem
      [({ staleWorld with running := Function.update staleWorld.running 1 (some 0) },
          .stage 0 1 []), (staleWorld, .start 1)] oneSweep :=
  .next (.next (.start staleWorld_initial) rfl) rfl

theorem homes_undisturbed_sample : ∃ h w, oneSweep.looksOn 7 = some w ∧ Undisturbed h w := by
  have hguarded : Guarded Spares
      [({ staleWorld with running := Function.update staleWorld.running 1 (some 0) },
          .stage 0 1 []), (staleWorld, .start 1)] :=
    (guarded_cons ..).mpr ⟨trivial, (guarded_cons ..).mpr ⟨trivial, guarded_nil _⟩⟩
  have hlooks : (oneSweep.looksOn 7).isSome = true := by decide
  obtain ⟨w, hw⟩ := Option.isSome_iff_exists.mp hlooks
  obtain ⟨h, hrun, hspares, -⟩ :=
    looksOn_run oneSweep_run hguarded (fun i hi => Function.update_of_ne hi ..) hw
  exact ⟨h, w, hw, homes_undisturbed hrun hspares⟩

example : (oneSweep.looksOn 7).bind (fun w => (w.calls 0).bind fun c => c.phase.target) =
    some (homeName 7 0, [ownerMarker]) := by decide

end A3sBench.CodexHomes
