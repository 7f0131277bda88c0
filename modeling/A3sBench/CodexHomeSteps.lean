import A3sBench.CodexHomes

/-!
# One home, step by step

A removal goes through while nobody adds to the home, and a staging while nobody
takes from it.
-/

namespace A3sBench.CodexHomes

open Library

/-! ## What a removal does to a home -/

/-- The path that the next system call of the removal takes away. -/
def target : List Frame → Option (List String)
  | .entries dir ((name, false) :: _) :: _ => some (dir ++ [name])
  | .entries dir [] :: _ => some dir
  | _ => none

def Marked (slot : Option Home) : Prop := ∃ bytes, lookup slot [ownerMarker] = some (.file bytes)

/-- Something is gone, and what is left is as it was. -/
structure Took (path : List String) (slot slot' : Option Home) : Prop where
  shrinks : ∀ path content, lookup slot' path = some content → lookup slot path = some content
  same : ∀ home', slot' = some home' → ∃ home, slot = some home ∧ home.id = home'.id
  stays : path ≠ [] → slot.isSome → slot'.isSome
  marked : path ≠ [ownerMarker] → Marked slot → Marked slot'

theorem lookup_some {home : Home} {t : Dir} (h : home.tree = some t) {name : String}
    {path : List String} : lookup (some home) (name :: path) = t.find (name :: path) := by
  simp [lookup, h]

theorem below_ok {call : Dir → Except Errno Dir} {now : Nat} {slot slot' : Option Home}
    (h : below call now slot = .ok slot') :
    ∃ home t after, slot = some home ∧ home.tree = some t ∧ call t = .ok after ∧
      slot' = some (home.put t after now) := by
  cases slot with
  | none => cases h
  | some home =>
    cases htree : home.tree with
    | none =>
      simp only [below, htree] at h
      cases h
    | some t =>
      simp only [below, htree] at h
      cases hcall : call t with
      | error errno =>
        rw [hcall] at h
        cases h
      | ok after =>
        rw [hcall] at h
        exact ⟨home, t, after, rfl, htree, hcall, (Except.ok.inj h).symm⟩

theorem below_of {call : Dir → Except Errno Dir} {home : Home} {t after : Dir} (now : Nat)
    (htree : home.tree = some t) (hcall : call t = .ok after) :
    below call now (some home) = .ok (some (home.put t after now)) := by
  simp only [below, htree, hcall]
  rfl

theorem took_of_update {home : Home} {t after : Dir} {path : List String} (now : Nat)
    (htree : home.tree = some t)
    (hfind : after.find = Function.update t.find path none) :
    Took path (some home) (some (home.put t after now)) where
  shrinks := by
    intro q content hq
    cases q with
    | nil => simpa [lookup, Home.put, htree] using hq
    | cons x q =>
      rw [lookup_some rfl, hfind] at hq
      rw [lookup_some htree]
      obtain heq | heq := eq_or_ne (x :: q) path
      · rw [heq, Function.update_self] at hq
        cases hq
      · rwa [Function.update_of_ne heq] at hq
  same := by
    intro home' h
    obtain rfl := Option.some.inj h
    exact ⟨home, rfl, rfl⟩
  stays := fun _ _ => rfl
  marked := by
    rintro hpath ⟨bytes, hbytes⟩
    refine ⟨bytes, ?_⟩
    rw [lookup_some htree] at hbytes
    rw [lookup_some rfl, hfind, Function.update_of_ne (Ne.symm hpath), hbytes]

theorem readDir_ok {dir : List String} {slot : Option Home} {names : List (String × Bool)}
    (h : readDir dir slot = .ok names) :
    ∃ home t, slot = some home ∧ home.tree = some t ∧ lookup slot dir = some .dir ∧
      names = t.children dir := by
  rw [readDir] at h
  split at h
  · cases h
  · rename_i hdir
    cases slot with
    | none => cases hdir
    | some home =>
      cases htree : home.tree with
      | none => cases dir <;> simp [lookup, htree] at hdir
      | some t =>
        refine ⟨home, t, rfl, htree, hdir, ?_⟩
        simpa [htree] using (Except.ok.inj h).symm
  · cases h

theorem removeDir_ok {dir : List String} {now : Nat} {slot slot' : Option Home}
    (h : removeDir dir now slot = .ok slot') : Took dir slot slot' := by
  cases dir with
  | nil =>
    rw [removeDir] at h
    cases hread : readDir [] slot with
    | error errno =>
      rw [hread] at h
      cases h
    | ok names =>
      rw [hread] at h
      cases names with
      | cons name names => cases h
      | nil =>
        obtain rfl := Except.ok.inj h
        obtain ⟨home, t, rfl, htree, -, hnames⟩ := readDir_ok hread
        refine ⟨fun _ _ hlookup => (by cases hlookup), fun _ hnone => (by cases hnone),
          fun hne => absurd rfl hne, ?_⟩
        rintro - ⟨bytes, hbytes⟩
        rw [lookup_some htree] at hbytes
        have hmarker := PathTree.children_eq_nil.mp hnames.symm ownerMarker
        cases hmarker.symm.trans hbytes
  | cons name dir =>
    obtain ⟨home, t, after, rfl, htree, hcall, rfl⟩ := below_ok h
    exact took_of_update now htree (PathTree.rmdir_ok hcall).2

theorem lookup_removeDir {dir : List String} {now : Nat} {slot slot' : Option Home}
    (h : removeDir dir now slot = .ok slot') : lookup slot' dir = none := by
  cases dir with
  | nil =>
    rw [removeDir] at h
    split at h
    · cases h
    · obtain rfl := Except.ok.inj h
      rfl
    · cases h
  | cons name dir =>
    obtain ⟨home, t, after, rfl, htree, hcall, rfl⟩ := below_ok h
    rw [lookup_some rfl, (PathTree.rmdir_ok hcall).2, Function.update_self]

theorem removeStep_ok {now : Nat} {slot slot' : Option Home} {frames frames' : List Frame}
    (h : removeStep now slot frames = .ok (slot', frames')) :
    slot' = slot ∨ ∃ path, target frames = some path ∧ Took path slot slot' := by
  have hgone : ∀ {errno}, unlessGone slot errno = .ok (slot', frames') → slot' = slot := by
    intro errno hgone
    cases errno with
    | notFound => exact (Prod.mk.inj (Except.ok.inj hgone)).1.symm
    | alreadyExists | notEmpty | refused => cases hgone
  have hsame : ∀ {frames''}, (.ok (slot, frames'') : Except Errno _) = .ok (slot', frames') →
      slot' = slot := fun heq => (Prod.mk.inj (Except.ok.inj heq)).1.symm
  unfold removeStep at h
  split at h
  · exact .inl (hsame h)
  · split at h
    · exact .inl (hgone h)
    · exact .inl (hsame h)
  · split at h
    · exact .inl (hgone h)
    · exact .inl (hsame h)
  · exact .inl (hsame h)
  · rename_i dir name rest frames
    split at h
    · exact .inl (hgone h)
    · rename_i after hunlink
      obtain ⟨rfl, -⟩ := Prod.mk.inj (Except.ok.inj h)
      obtain ⟨home, t, tree, rfl, htree, hcall, rfl⟩ := below_ok hunlink
      exact .inr ⟨dir ++ [name], rfl, took_of_update now htree (PathTree.unlink_ok hcall)⟩
  · rename_i dir frames
    split at h
    · exact .inl (hgone h)
    · rename_i after hremove
      obtain ⟨rfl, -⟩ := Prod.mk.inj (Except.ok.inj h)
      exact .inr ⟨dir, rfl, removeDir_ok hremove⟩

/-! ## A removal that nobody adds to -/

/-- The loop over a directory has everything ahead that is in it, but what it is at. -/
structure Listed (slot : Option Home) (dir : List String) (rest : List (String × Bool))
    (current : Option String) : Prop where
  ahead : ∀ name content, lookup slot (dir ++ [name]) = some content →
    (name, content.isDir) ∈ rest ∨ current = some name
  kinds : ∀ name isDir, (name, isDir) ∈ rest → ∀ content,
    lookup slot (dir ++ [name]) = some content → content.isDir = isDir

def DirIfThere (slot : Option Home) (dir : List String) : Prop :=
  ∀ content, lookup slot dir = some content → content = .dir

/-- The frames below that of a directory are at it. -/
def Beneath (slot : Option Home) : List String → List Frame → Prop
  | dir, [] => dir = []
  | dir, .entries up rest :: frames =>
    ∃ name, dir = up ++ [name] ∧ Listed slot up rest (some name) ∧ DirIfThere slot up ∧
      Beneath slot up frames
  | _, _ => False

def Clears (slot : Option Home) : List Frame → Prop
  | [] => True
  | .enter dir :: frames => DirIfThere slot dir ∧ Beneath slot dir frames
  | .opened dir :: frames => DirIfThere slot dir ∧ Beneath slot dir frames
  | .entries dir rest :: frames =>
    Listed slot dir rest none ∧ DirIfThere slot dir ∧ Beneath slot dir frames

section Mono

variable {slot slot' : Option Home}
  (h : ∀ path content, lookup slot' path = some content → lookup slot path = some content)

include h

theorem Listed.mono {dir : List String} {rest : List (String × Bool)} {current : Option String}
    (hlisted : Listed slot dir rest current) : Listed slot' dir rest current where
  ahead := fun name content hlookup => hlisted.ahead name content (h _ content hlookup)
  kinds := fun name isDir hmem content hlookup =>
    hlisted.kinds name isDir hmem content (h _ content hlookup)

theorem DirIfThere.mono {dir : List String} (hdir : DirIfThere slot dir) : DirIfThere slot' dir :=
  fun content hlookup => hdir content (h dir content hlookup)

theorem Beneath.mono {dir : List String} {frames : List Frame} (hbeneath : Beneath slot dir frames) :
    Beneath slot' dir frames := by
  induction frames generalizing dir with
  | nil => exact hbeneath
  | cons frame frames ih =>
    cases frame with
    | enter | opened => exact hbeneath.elim
    | entries up rest =>
      obtain ⟨name, hdir, hlisted, hup, hbelow⟩ := hbeneath
      exact ⟨name, hdir, hlisted.mono h, hup.mono h, ih hbelow⟩

theorem Clears.mono {frames : List Frame} (hclears : Clears slot frames) : Clears slot' frames := by
  cases frames with
  | nil => trivial
  | cons frame frames =>
    cases frame with
    | enter dir | opened dir => exact ⟨DirIfThere.mono h hclears.1, Beneath.mono h hclears.2⟩
    | entries dir rest =>
      exact ⟨hclears.1.mono h, DirIfThere.mono h hclears.2.1, Beneath.mono h hclears.2.2⟩

end Mono

theorem lookup_append {slot : Option Home} {dir : List String} {name : String}
    {content : Content Bytes} (h : lookup slot (dir ++ [name]) = some content) :
    ∃ home t, slot = some home ∧ home.tree = some t ∧ t.find (dir ++ [name]) = some content := by
  cases slot with
  | none => cases h
  | some home =>
    obtain ⟨x, path, hpath⟩ := List.exists_cons_of_ne_nil (List.append_ne_nil_of_right_ne_nil dir
      (List.cons_ne_nil name []))
    rw [hpath] at h ⊢
    cases htree : home.tree with
    | none => simp [lookup, htree] at h
    | some t => exact ⟨home, t, rfl, htree, (lookup_some htree).symm.trans h⟩

theorem listed_children {slot : Option Home} {dir : List String} {names : List (String × Bool)}
    (h : readDir dir slot = .ok names) : Listed slot dir names none := by
  obtain ⟨home, t, rfl, htree, -, rfl⟩ := readDir_ok h
  have hfind : ∀ name, lookup (some home) (dir ++ [name]) = t.find (dir ++ [name]) := by
    intro name
    obtain ⟨x, path, hpath⟩ := List.exists_cons_of_ne_nil (List.append_ne_nil_of_right_ne_nil dir
      (List.cons_ne_nil name []))
    rw [hpath]
    exact lookup_some htree
  refine ⟨fun name content hlookup => .inl ?_, fun name isDir hmem content hlookup => ?_⟩
  · exact PathTree.mem_children.mpr ⟨content, (hfind name).symm.trans hlookup, rfl⟩
  · obtain ⟨content', hcontent, hkind⟩ := PathTree.mem_children.mp hmem
    obtain rfl := Option.some.inj (hlookup.symm.trans ((hfind name).trans hcontent))
    exact hkind

theorem unlink_of_file {slot : Option Home} {path : List String} (now : Nat) (hne : path ≠ [])
    (hslot : DirIfThere slot []) (h : ∀ content, lookup slot path = some content →
      content.isDir = false) :
    below (·.unlink path) now slot = .error .notFound ∨
      ∃ slot', below (·.unlink path) now slot = .ok slot' := by
  cases slot with
  | none => exact .inl rfl
  | some home =>
    cases htree : home.tree with
    | none => exact absurd (hslot .other (by simp [lookup, htree])) (by simp)
    | some t =>
      have hfile : ¬ t.IsDir path := by
        rintro (hnil | hdir)
        · exact hne hnil
        · obtain ⟨x, rest, rfl⟩ := List.exists_cons_of_ne_nil hne
          exact absurd (h .dir ((lookup_some htree).trans hdir)) (by simp [Content.isDir])
      obtain hgone | ⟨after, hafter⟩ := PathTree.unlink_of hfile
      · exact .inl (by simp [below, htree, hgone]; rfl)
      · exact .inr ⟨_, below_of now htree hafter⟩

theorem removeDir_of_empty {slot : Option Home} {dir : List String} (now : Nat)
    (hslot : DirIfThere slot []) (hdir : DirIfThere slot dir) (hlisted : Listed slot dir [] none) :
    removeDir dir now slot = .error .notFound ∨ ∃ slot', removeDir dir now slot = .ok slot' := by
  cases slot with
  | none => cases dir <;> exact .inl rfl
  | some home =>
    cases htree : home.tree with
    | none => exact absurd (hslot .other (by simp [lookup, htree])) (by simp)
    | some t =>
      have hempty : ∀ path, dir = path → t.children path = [] := by
        rintro path rfl
        refine PathTree.children_eq_nil.mpr fun name => ?_
        by_contra hne
        obtain ⟨content, hfind⟩ := Option.ne_none_iff_exists'.mp hne
        obtain ⟨x, rest, hpath⟩ := List.exists_cons_of_ne_nil
          (List.append_ne_nil_of_right_ne_nil dir (List.cons_ne_nil name []))
        have hlookup : lookup (some home) (dir ++ [name]) = some content := by
          rw [hpath] at hfind ⊢
          exact (lookup_some htree).trans hfind
        obtain hmem | hnone := hlisted.ahead name content hlookup
        · cases hmem
        · cases hnone
      cases dir with
      | nil =>
        refine .inr ⟨none, ?_⟩
        have hread : readDir [] (some home) = .ok [] := by
          simp [readDir, lookup, htree, hempty [] rfl]
        rw [removeDir, hread]
      | cons name dir =>
        have hkind : ∀ content, t.find (name :: dir) = some content → content = .dir :=
          fun content hfind => hdir content ((lookup_some htree).trans hfind)
        obtain hgone | ⟨after, hafter⟩ := PathTree.rmdir_of hkind (hempty _ rfl)
        · exact .inl (by simp [removeDir, below, htree, hgone]; rfl)
        · exact .inr ⟨_, below_of now htree hafter⟩

theorem Beneath.root {slot : Option Home} {dir : List String} {frames : List Frame}
    (h : Beneath slot dir frames) (hdir : DirIfThere slot dir) : DirIfThere slot [] := by
  induction frames generalizing dir with
  | nil =>
    obtain rfl : dir = [] := h
    exact hdir
  | cons frame frames ih =>
    cases frame with
    | enter | opened => exact h.elim
    | entries up rest =>
      obtain ⟨name, -, -, hup, hbelow⟩ := h
      exact ih hbelow hup

theorem Beneath.pop {slot slot' : Option Home} {dir : List String} {frames : List Frame}
    (h : Beneath slot dir frames) (htook : Took dir slot slot')
    (hgone : lookup slot' dir = none) : Clears slot' frames := by
  cases frames with
  | nil => trivial
  | cons frame frames =>
    cases frame with
    | enter | opened => exact h.elim
    | entries up rest =>
      obtain ⟨name, rfl, hlisted, hup, hbelow⟩ := h
      have hlisted' := hlisted.mono htook.shrinks
      refine ⟨⟨fun x content hlookup => ?_, hlisted'.kinds⟩, hup.mono htook.shrinks,
        hbelow.mono htook.shrinks⟩
      obtain hmem | hcurrent := hlisted'.ahead x content hlookup
      · exact .inl hmem
      · obtain rfl := Option.some.inj hcurrent
        rw [hgone] at hlookup
        cases hlookup

/-- Nothing stands in the way of a removal while nobody adds anything. -/
theorem Clears.step {slot : Option Home} {frames : List Frame} (now : Nat)
    (h : Clears slot frames) :
    ∃ slot' frames', removeStep now slot frames = .ok (slot', frames') ∧ Clears slot' frames' := by
  cases frames with
  | nil => exact ⟨slot, [], rfl, trivial⟩
  | cons frame frames =>
    cases frame with
    | enter dir =>
      rw [removeStep]
      cases lookup slot dir with
      | none => exact ⟨slot, [], rfl, trivial⟩
      | some content => exact ⟨slot, .opened dir :: frames, rfl, h⟩
    | opened dir =>
      rw [removeStep]
      cases hread : readDir dir slot with
      | ok names => exact ⟨slot, .entries dir names :: frames, rfl, listed_children hread, h⟩
      | error errno =>
        obtain rfl : errno = .notFound := by
          rw [readDir] at hread
          split at hread
          · exact (Except.error.inj hread).symm
          · cases hread
          · rename_i content hlookup
            exact absurd (h.1 _ hlookup) content
        exact ⟨slot, [], rfl, trivial⟩
    | entries dir rest =>
      obtain ⟨hlisted, hdir, hbelow⟩ := h
      cases rest with
      | nil =>
        rw [removeStep]
        obtain hgone | ⟨slot', hremove⟩ := removeDir_of_empty now (hbelow.root hdir) hdir hlisted
        · rw [hgone]
          exact ⟨slot, [], rfl, trivial⟩
        · rw [hremove]
          exact ⟨slot', frames, rfl,
            hbelow.pop (removeDir_ok hremove) (lookup_removeDir hremove)⟩
      | cons entry rest =>
        obtain ⟨name, isDir⟩ := entry
        cases isDir with
        | true =>
          have hkind : DirIfThere slot (dir ++ [name]) := fun content hlookup =>
            Content.isDir_eq_true.mp
              (hlisted.kinds name true List.mem_cons_self content hlookup)
          refine ⟨slot, .enter (dir ++ [name]) :: .entries dir rest :: frames, rfl, hkind, name, rfl,
            ⟨fun x content hlookup => ?_, fun x isDir hmem => ?_⟩, hdir, hbelow⟩
          · obtain hmem | hcurrent := hlisted.ahead x content hlookup
            · obtain heq | hmem := List.mem_cons.mp hmem
              · exact .inr (congrArg some (Prod.mk.inj heq).1.symm)
              · exact .inl hmem
            · cases hcurrent
          · exact hlisted.kinds x isDir (List.mem_cons_of_mem _ hmem)
        | false =>
          rw [removeStep]
          rcases unlink_of_file now (by simp) (hbelow.root hdir)
            (hlisted.kinds name false List.mem_cons_self) with hgone | ⟨slot', hunlink⟩
          · rw [hgone]
            exact ⟨slot, [], rfl, trivial⟩
          · rw [hunlink]
            obtain ⟨home, t, after, rfl, htree, hcall, rfl⟩ := below_ok hunlink
            have htook : Took (dir ++ [name]) (some home) (some (home.put t after now)) :=
              took_of_update now htree (PathTree.unlink_ok hcall)
            refine ⟨_, .entries dir rest :: frames, rfl, ⟨fun x content hlookup => ?_,
              fun x isDir hmem => (hlisted.mono htook.shrinks).kinds x isDir
                (List.mem_cons_of_mem _ hmem)⟩, hdir.mono htook.shrinks, hbelow.mono htook.shrinks⟩
            obtain hmem | hcurrent := (hlisted.mono htook.shrinks).ahead x content hlookup
            · obtain heq | hmem := List.mem_cons.mp hmem
              · obtain ⟨rfl, -⟩ := Prod.mk.inj heq
                obtain ⟨home', t', hhome, htree', hfind⟩ := lookup_append hlookup
                obtain rfl := Option.some.inj hhome
                obtain rfl := Option.some.inj htree'
                rw [PathTree.unlink_ok hcall, Function.update_self] at hfind
                cases hfind
              · exact .inl hmem
            · cases hcurrent

/-! ## A staging that nobody takes from -/

/-- A marker stays, and is a file. -/
structure MarkerKept (t t' : Dir) : Prop where
  file : ∀ content, t'.find [ownerMarker] = some content → ∃ bytes, content = .file bytes
  stays : (t.find [ownerMarker]).isSome → (t'.find [ownerMarker]).isSome

/-- The system calls succeed one after the other. -/
def Fills : Dir → List Syscall → Prop
  | _, [] => True
  | t, call :: rest => ∃ t', call.onTree t = .ok t' ∧ MarkerKept t t' ∧ Fills t' rest

/-- A marker that is in place stays there whatever else is made. -/
theorem MarkerKept.of_eq {t t' : Dir} {bytes : Bytes}
    (h : t'.find [ownerMarker] = some (.file bytes)) : MarkerKept t t' where
  file := fun _ hfind => ⟨bytes, Option.some.inj (hfind.symm.trans h)⟩
  stays := fun _ => Option.isSome_iff_exists.mpr ⟨_, h⟩

theorem MarkerKept.of_none {t t' : Dir} (h : t.find [ownerMarker] = none)
    (h' : t'.find [ownerMarker] = none) : MarkerKept t t' where
  file := fun _ hfind => by cases h'.symm.trans hfind
  stays := fun hsome => by
    rw [h] at hsome
    cases hsome

theorem stat_of {t : Dir} {path : List String} (h : t.IsDir path) :
    (Syscall.stat path).onTree t = .ok t := if_pos h

theorem chmod_of {t : Dir} {path : List String} (h : path = [] ∨ t.find path ≠ none) :
    (Syscall.chmod path).onTree t = .ok t := if_pos h

theorem sync_of {t : Dir} {path : List String} (h : path = [] ∨ t.find path ≠ none) :
    (Syscall.sync path).onTree t = .ok t := if_pos h

theorem fills_secureDirectory {t : Dir} {path : List String} {bytes : Bytes} {rest : List Syscall}
    (hmarker : t.find [ownerMarker] = some (.file bytes)) (hdirs : ∀ q, q <+: path → t.IsDir q)
    (hrest : Fills t rest) : Fills t (secureDirectory path ++ rest) := by
  have hdir := hdirs path (List.prefix_refl path)
  have hthere : path = [] ∨ t.find path ≠ none :=
    hdir.imp id fun hfind hnone => by cases hfind.symm.trans hnone
  exact ⟨t, PathTree.makeDirs_of hdirs, .of_eq hmarker, t, stat_of hdir, .of_eq hmarker, t,
    chmod_of hthere, .of_eq hmarker, hrest⟩

theorem codex_ne_ownerMarker : ".codex" ≠ ownerMarker := by decide

theorem fills_fill {t : Dir} {temporary : String} {marker : Content Bytes} {bytes : Bytes}
    (auth : Bytes) (hmarker : marker = .file bytes) (hne : temporary ≠ ownerMarker)
    (hfind : t.find = Function.update (fun _ => none) [temporary] (some marker)) :
    Fills t (fill temporary auth) := by
  subst hmarker
  have htemporary : t.find [temporary] = some (.file bytes) := by
    rw [hfind, Function.update_self]
  have hmarkerFree : t.find [ownerMarker] = none := by
    rw [hfind, Function.update_of_ne]
    simpa using Ne.symm hne
  have hfile : ¬ t.IsDir [temporary] := by
    rintro (hnil | hdir)
    · cases hnil
    · cases htemporary.symm.trans hdir
  obtain ⟨t₁, hrename, hfind₁⟩ := PathTree.rename_of hfile htemporary
    (List.cons_ne_nil ownerMarker []) rfl (by rw [hmarkerFree]; exact fun h => by cases h)
  rw [hfind, Function.update_idem, Function.update_eq_self] at hfind₁
  have hmarker₁ : t₁.find [ownerMarker] = some (.file bytes) := by
    rw [hfind₁, Function.update_self]
  have hcodex : ([".codex"] : List String) ≠ [ownerMarker] := by
    simpa using codex_ne_ownerMarker
  obtain ⟨t₂, hcreate₂, hfind₂⟩ : ∃ t₂, t₁.create [".codex"] .dir = .ok t₂ ∧
      t₂.find = Function.update t₁.find [".codex"] (some .dir) :=
    PathTree.create_of .dir ⟨List.cons_ne_nil _ _, .inl rfl⟩ (by
      rw [hfind₁, Function.update_of_ne hcodex])
  have hmarker₂ : t₂.find [ownerMarker] = some (.file bytes) := by
    rw [hfind₂, Function.update_of_ne (Ne.symm hcodex), hmarker₁]
  have hdir₂ : t₂.find [".codex"] = some .dir := by rw [hfind₂, Function.update_self]
  have hauth : ([".codex", "auth.json"] : List String) ≠ [".codex"] := by decide
  have hauthMarker : ([".codex", "auth.json"] : List String) ≠ [ownerMarker] := by simp
  obtain ⟨t₃, hcreate₃, hfind₃⟩ : ∃ t₃, t₂.create [".codex", "auth.json"] (.file auth) = .ok t₃ ∧
      t₃.find = Function.update t₂.find [".codex", "auth.json"] (some (.file auth)) :=
    PathTree.create_of _ ⟨List.cons_ne_nil _ _, .inr hdir₂⟩ (by
      rw [hfind₂, Function.update_of_ne hauth, hfind₁, Function.update_of_ne hauthMarker])
  have hmarker₃ : t₃.find [ownerMarker] = some (.file bytes) := by
    rw [hfind₃, Function.update_of_ne (Ne.symm hauthMarker), hmarker₂]
  have hauth₃ : t₃.find [".codex", "auth.json"] ≠ none := by
    rw [hfind₃, Function.update_self]
    exact fun h => by cases h
  have hend : Fills t₂ [.create [".codex", "auth.json"] (.file auth),
      .chmod [".codex", "auth.json"]] :=
    ⟨t₃, hcreate₃, .of_eq hmarker₃, t₃, chmod_of (.inr hauth₃), .of_eq hmarker₃, trivial⟩
  refine ⟨t₁, hrename, .of_eq hmarker₁, t₁, sync_of (.inl rfl), .of_eq hmarker₁, t₂, hcreate₂,
    .of_eq hmarker₂, fills_secureDirectory hmarker₂ (fun q hq => ?_) hend⟩
  obtain rfl | ⟨q', rfl, hq'⟩ := List.prefix_cons_iff.mp hq
  · exact .inl rfl
  · rw [List.prefix_nil.mp hq']
    exact .inr hdir₂

/-- `secure_directory` finds a new home as it should be. -/
theorem onTree_secureDirectory {call : Syscall} (h : call ∈ secureDirectory []) (t : Dir) :
    call.onTree t = .ok t := by
  simp only [secureDirectory, List.mem_cons, List.not_mem_nil, or_false] at h
  obtain rfl | rfl | rfl := h
  · exact PathTree.makeDirs_of fun q hq => .inl (List.prefix_nil.mp hq)
  · exact stat_of (.inl rfl)
  · exact chmod_of (.inl rfl)

theorem run_of (stamp : Stamp) {call : Syscall} {home : Home} {t t' : Dir}
    (htree : home.tree = some t) (hcall : call.onTree t = .ok t') :
    call.run stamp (some home) = .ok (some (home.put t t' stamp.now)) := by
  have hrun : call.run stamp (some home) = below call.onTree stamp.now (some home) := by
    cases call <;> rfl
  exact hrun.trans (below_of stamp.now htree hcall)

/-! ## Names -/

theorem homeName_inj {pid pid' : UInt32} {sequence sequence' : Nat}
    (h : homeName pid sequence = homeName pid' sequence') : pid = pid' ∧ sequence = sequence' := by
  have hdash : ∀ n : Nat, '-' ∉ (toString n).toList := by
    intro n hmem
    rw [Nat.toString_eq_ofList_toDigits, String.toList_ofList] at hmem
    exact absurd (Nat.isDigit_of_mem_toDigits (by decide) (by decide) hmem) (by decide)
  have hlist := congrArg String.toList h
  simp only [homeName, String.toList_append, List.append_assoc, List.append_cancel_left_eq] at hlist
  obtain ⟨hpid, -, hsequence⟩ := (List.append_cons_inj_of_notMem (hdash pid.toNat)
    (hdash sequence)).mp hlist
  exact ⟨UInt32.toNat_inj.mp (Nat.repr_injective (String.toList_inj.mp hpid)),
    Nat.repr_injective (String.toList_inj.mp hsequence)⟩

end A3sBench.CodexHomes
