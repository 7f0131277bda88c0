import Mathlib

/-!
# Trees of named entries

The contents of a directory, entry by entry at its path. Every operation is one
system call: it finds its entry or says why it could not, and nothing is left
without the directory it is in.
-/

namespace A3sBench.Library

universe u v

inductive Errno where
  | notFound
  | alreadyExists
  | notEmpty
  /-- Anything else, such as an entry of the wrong kind. -/
  | refused
  deriving DecidableEq

inductive Content (β : Type v) where
  | dir
  | file (data : β)
  | other
  deriving DecidableEq

def Content.isDir {β : Type v} : Content β → Bool
  | .dir => true
  | _ => false

theorem Content.isDir_eq_true {β : Type v} {content : Content β} :
    content.isDir = true ↔ content = .dir := by
  cases content <;> simp [isDir]

/-- What is below a directory. Its own path is empty. -/
structure PathTree (α : Type u) (β : Type v) where
  find : List α → Option (Content β)
  paths : List (List α)
  covered : ∀ p, (find p).isSome → p ∈ paths
  closed : ∀ p x, (find (p ++ [x])).isSome → p = [] ∨ find p = some .dir

namespace PathTree

variable {α : Type u} {β : Type v} [DecidableEq α] [DecidableEq β]

def empty : PathTree α β where
  find := fun _ => none
  paths := []
  covered := fun _ h => by cases h
  closed := fun _ _ h => by cases h

/-- The path is that of a directory. -/
def IsDir (t : PathTree α β) (p : List α) : Prop := p = [] ∨ t.find p = some .dir

instance decidableIsDir (t : PathTree α β) (p : List α) : Decidable (t.IsDir p) :=
  inferInstanceAs (Decidable (_ ∨ _))

/-- What a path of the tree is in a directory. -/
def childOf (t : PathTree α β) (p q : List α) : Option (α × Bool) :=
  q.getLast?.bind fun x =>
    (t.find q).bind fun content => if q.dropLast = p then some (x, content.isDir) else none

/-- `read_dir`: the names in a directory, and which of them are directories. -/
def children (t : PathTree α β) (p : List α) : List (α × Bool) := t.paths.filterMap (t.childOf p)

omit [DecidableEq β] in
theorem mem_children {t : PathTree α β} {p : List α} {x : α} {d : Bool} :
    (x, d) ∈ t.children p ↔ ∃ content, t.find (p ++ [x]) = some content ∧ content.isDir = d := by
  simp only [children, List.mem_filterMap, childOf, Option.bind_eq_some_iff]
  constructor
  · rintro ⟨q, -, y, hlast, content, hfind, hsome⟩
    split at hsome
    · rename_i hparent
      obtain ⟨rfl, rfl⟩ := Prod.mk.inj (Option.some.inj hsome)
      refine ⟨content, ?_, rfl⟩
      rwa [← hparent, List.dropLast_append_getLast? _ hlast]
    · cases hsome
  · rintro ⟨content, hfind, rfl⟩
    refine ⟨p ++ [x], t.covered _ (by rw [hfind]; rfl), x, List.getLast?_concat, content, hfind, ?_⟩
    rw [if_pos List.dropLast_concat]

omit [DecidableEq β] in
theorem children_eq_nil {t : PathTree α β} {p : List α} :
    t.children p = [] ↔ ∀ x, t.find (p ++ [x]) = none := by
  constructor
  · intro h x
    by_contra hne
    obtain ⟨content, hfind⟩ := Option.ne_none_iff_exists'.mp hne
    have hmem : (x, content.isDir) ∈ t.children p := mem_children.mpr ⟨content, hfind, rfl⟩
    rw [h] at hmem
    cases hmem
  · intro h
    refine List.eq_nil_iff_forall_not_mem.mpr fun e he => ?_
    obtain ⟨content, hfind, -⟩ := mem_children.mp (show (e.1, e.2) ∈ t.children p from he)
    rw [h e.1] at hfind
    cases hfind

/-! ## Entries put in and taken out -/

/-- A new entry in a directory, in the place of anything but a directory. -/
def insert (t : PathTree α β) (p : List α) (content : Content β)
    (hplace : p ≠ [] ∧ t.IsDir p.dropLast) (hfree : t.find p ≠ some .dir) : PathTree α β where
  find := Function.update t.find p (some content)
  paths := p :: t.paths
  covered := by
    intro q h
    obtain hq | hq := eq_or_ne q p
    · exact hq ▸ List.mem_cons_self
    · rw [Function.update_of_ne hq] at h
      exact List.mem_cons_of_mem p (t.covered q h)
  closed := by
    intro q x h
    obtain hq | hq := eq_or_ne (q ++ [x]) p
    · subst hq
      have hne : q ≠ q ++ [x] := fun heq => by simpa using congrArg List.length heq
      rw [Function.update_of_ne hne]
      simpa [IsDir] using hplace.2
    · rw [Function.update_of_ne hq] at h
      refine (t.closed q x h).imp id fun hdir => ?_
      have hne : q ≠ p := by
        rintro rfl
        exact hfree hdir
      rwa [Function.update_of_ne hne]

/-- An entry with nothing below it is gone. -/
def erase (t : PathTree α β) (p : List α) (hempty : ∀ x, t.find (p ++ [x]) = none) :
    PathTree α β where
  find := Function.update t.find p none
  paths := t.paths
  covered := by
    intro q h
    obtain hq | hq := eq_or_ne q p
    · rw [hq, Function.update_self] at h
      cases h
    · rw [Function.update_of_ne hq] at h
      exact t.covered q h
  closed := by
    intro q x h
    have hx : q ++ [x] ≠ p := by
      rintro rfl
      rw [Function.update_self] at h
      cases h
    rw [Function.update_of_ne hx] at h
    refine (t.closed q x h).imp id fun hdir => ?_
    rwa [Function.update_of_ne]
    rintro rfl
    rw [hempty x] at h
    cases h

omit [DecidableEq α] [DecidableEq β] in
theorem childless {t : PathTree α β} {p : List α} (h : ¬ t.IsDir p) (x : α) :
    t.find (p ++ [x]) = none := by
  by_contra hne
  exact h (t.closed p x (Option.isSome_iff_ne_none.mpr hne))

/-! ## System calls -/

/-- The directory the entry goes into is there. -/
def HasPlace (t : PathTree α β) (p : List α) : Prop := p ≠ [] ∧ t.IsDir p.dropLast

instance decidableHasPlace (t : PathTree α β) (p : List α) : Decidable (t.HasPlace p) :=
  inferInstanceAs (Decidable (_ ∧ _))

/-- Why an entry has no place. -/
def placeless (t : PathTree α β) (p : List α) : Errno :=
  if t.find p.dropLast = none then .notFound else .refused

/-- `mkdir`, and `open` with `O_CREAT | O_EXCL`. -/
def create (t : PathTree α β) (p : List α) (content : Content β) : Except Errno (PathTree α β) :=
  if hplace : t.HasPlace p then
    if hfree : t.find p = none then
      .ok (t.insert p content hplace (by rw [hfree]; exact fun heq => by cases heq))
    else .error .alreadyExists
  else .error (t.placeless p)

def unlink (t : PathTree α β) (p : List α) : Except Errno (PathTree α β) :=
  if h : t.IsDir p then .error .refused
  else if t.find p = none then .error .notFound
  else .ok (t.erase p (childless h))

def rmdir (t : PathTree α β) (p : List α) : Except Errno (PathTree α β) :=
  if t.find p = none then .error .notFound
  else if t.find p ≠ some .dir then .error .refused
  else if h : t.children p = [] then .ok (t.erase p (children_eq_nil.mp h))
  else .error .notEmpty

/-- `rename` of anything but a directory. -/
def rename (t : PathTree α β) (p q : List α) : Except Errno (PathTree α β) :=
  if h : t.IsDir p then .error .refused
  else
    match t.find p with
    | none => .error .notFound
    | some content =>
      if hplace : (t.erase p (childless h)).HasPlace q then
        if hfree : (t.erase p (childless h)).find q = some .dir then .error .refused
        else .ok ((t.erase p (childless h)).insert q content hplace hfree)
      else .error (t.placeless q)

/-- `create_dir_all` -/
def makeDirs (t : PathTree α β) (p : List α) : Except Errno (PathTree α β) :=
  p.inits.foldlM (fun t q => if t.IsDir q then .ok t else t.create q .dir) t

theorem create_ok {t t' : PathTree α β} {p : List α} {content : Content β}
    (h : t.create p content = .ok t') :
    t.find p = none ∧ t'.find = Function.update t.find p (some content) := by
  rw [create] at h
  split at h
  · split at h
    · rename_i hfree
      obtain rfl := Except.ok.inj h
      exact ⟨hfree, rfl⟩
    · cases h
  · cases h

theorem create_of {t : PathTree α β} {p : List α} (content : Content β) (hplace : t.HasPlace p)
    (hfree : t.find p = none) :
    ∃ t', t.create p content = .ok t' ∧ t'.find = Function.update t.find p (some content) := by
  rw [create, dif_pos hplace, dif_pos hfree]
  exact ⟨_, rfl, rfl⟩

theorem unlink_ok {t t' : PathTree α β} {p : List α} (h : t.unlink p = .ok t') :
    t'.find = Function.update t.find p none := by
  rw [unlink] at h
  split at h
  · cases h
  · split at h
    · cases h
    · obtain rfl := Except.ok.inj h
      rfl

theorem unlink_of {t : PathTree α β} {p : List α} (h : ¬ t.IsDir p) :
    t.unlink p = .error .notFound ∨ ∃ t', t.unlink p = .ok t' := by
  rw [unlink, dif_neg h]
  split
  · exact .inl rfl
  · exact .inr ⟨_, rfl⟩

theorem rmdir_ok {t t' : PathTree α β} {p : List α} (h : t.rmdir p = .ok t') :
    t.find p = some .dir ∧ t'.find = Function.update t.find p none := by
  rw [rmdir] at h
  split at h
  · cases h
  · split at h
    · cases h
    · rename_i hdir
      split at h
      · obtain rfl := Except.ok.inj h
        exact ⟨not_not.mp hdir, rfl⟩
      · cases h

theorem rmdir_of {t : PathTree α β} {p : List α} (hdir : ∀ content, t.find p = some content →
    content = .dir) (hempty : t.children p = []) :
    t.rmdir p = .error .notFound ∨ ∃ t', t.rmdir p = .ok t' := by
  rw [rmdir]
  cases hfind : t.find p with
  | none => exact .inl (if_pos rfl)
  | some content =>
    obtain rfl := hdir content hfind
    rw [if_neg (fun h => by cases h), if_neg (not_not.mpr rfl), dif_pos hempty]
    exact .inr ⟨_, rfl⟩

theorem rename_of {t : PathTree α β} {p q : List α} {content : Content β}
    (hp : ¬ t.IsDir p) (hfind : t.find p = some content) (hq : q ≠ []) (hroot : q.dropLast = [])
    (hfree : t.find q ≠ some .dir) :
    ∃ t', t.rename p q = .ok t' ∧
      t'.find = Function.update (Function.update t.find p none) q (some content) := by
  rw [rename, dif_neg hp]
  have hplace : (t.erase p (childless hp)).HasPlace q := ⟨hq, .inl hroot⟩
  have hfree' : (t.erase p (childless hp)).find q ≠ some .dir := by
    intro heq
    obtain hqp | hqp := eq_or_ne q p
    · rw [hqp] at heq
      exact absurd (heq.symm.trans (Function.update_self ..)) (by simp)
    · exact hfree ((Function.update_of_ne hqp ..).symm.trans heq)
  simp only [hfind, dif_pos hplace, dif_neg hfree']
  exact ⟨_, rfl, rfl⟩

theorem makeDirs_of {t : PathTree α β} {p : List α} (h : ∀ q, q <+: p → t.IsDir q) :
    t.makeDirs p = .ok t := by
  have hall : ∀ qs : List (List α), (∀ q ∈ qs, t.IsDir q) →
      qs.foldlM (fun t q => if t.IsDir q then .ok t else t.create q .dir) t = .ok t := by
    intro qs
    induction qs with
    | nil => exact fun _ => rfl
    | cons q qs ih =>
      intro hqs
      rw [List.foldlM_cons, if_pos (hqs q List.mem_cons_self)]
      exact ih fun r hr => hqs r (List.mem_cons_of_mem q hr)
  exact hall p.inits fun q hq => h q ((List.mem_inits q p).mp hq)

end PathTree

end A3sBench.Library
