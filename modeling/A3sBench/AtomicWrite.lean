import A3sBench.FileTree
import A3sBench.Library.Runs

/-!
# Concurrent writes of one state file

`secure_atomic_write` step by step, for any number of calls from any processes,
each of which may fail or be killed, and readers of the same path. A directory
maps names to inodes; a reader keeps the inode it opened.
-/

namespace A3sBench.StateFs

open Library (System)

abbrev Inode := Nat

structure Call where
  /-- Which process makes the call. -/
  process : Nat
  payload : Bytes

/-- Where a call stands. -/
inductive Phase where
  | idle
  | allocating (attempts : Nat)
  | creating (attempts : Nat) (candidate : String)
  | writing (temporary : String) (inode : Inode) (written : Nat)
  | created (temporary : String) (inode : Inode)
  | discarding (temporary : String) (inode : Inode)
  | renamed
  | ok
  | failed
  | killed
  deriving DecidableEq

/-- The temporary of a call and how much of the payload is in it. -/
def Phase.staging (call : Call) : Phase → Option (String × Inode × Nat)
  | .writing temporary inode written => some (temporary, inode, written)
  | .created temporary inode => some (temporary, inode, call.payload.length)
  | .discarding temporary inode => some (temporary, inode, call.payload.length)
  | _ => none

/-- A read of the target; whether it was opened after a call had returned `Ok`. -/
inductive Reader where
  | idle
  | reading (inode : Inode) (data : Bytes) (afterOk : Bool)
  | done (result : Option Bytes) (afterOk : Bool)

structure Store where
  directory : String → Option Inode
  content : Inode → Bytes
  /-- The call that created an inode, none for what was there before. -/
  author : Inode → Option Nat
  next : Inode
  /-- `STAGING_SEQUENCE` of each process. -/
  sequence : Nat → UInt64
  phase : Nat → Phase
  reader : Nat → Reader

/-- What the calls have in common. -/
structure Setting where
  calls : Nat → Call
  processId : Nat → UInt32
  fileName : String
  /-- What the path shows before the first call. -/
  initial : Option Bytes

def temporaryName (fileName : String) (processId : UInt32) (sequence : UInt64) : String :=
  "." ++ fileName ++ ".tmp-" ++ toString processId.toNat ++ "-" ++ toString sequence.toNat

def maxAttempts : Nat := 32

/-- One system call of a call or of a reader. -/
inductive Event where
  | call (writer : Nat)
  | read (reader : Nat)
  deriving DecidableEq

namespace Store

def setPhase (s : Store) (writer : Nat) (phase : Phase) : Store :=
  { s with phase := Function.update s.phase writer phase }

@[simp] theorem phase_setPhase_self (s : Store) (w : Nat) (phase : Phase) :
    (s.setPhase w phase).phase w = phase := Function.update_self ..

theorem phase_setPhase_of_ne {s : Store} {v w : Nat} {phase : Phase} (h : v ≠ w) :
    (s.setPhase w phase).phase v = s.phase v := Function.update_of_ne h ..

def setReader (s : Store) (reader : Nat) (state : Reader) : Store :=
  { s with reader := Function.update s.reader reader state }

def setEntry (s : Store) (name : String) (entry : Option Inode) : Store :=
  { s with directory := Function.update s.directory name entry }

@[simp] theorem directory_setEntry_self (s : Store) (name : String) (entry : Option Inode) :
    (s.setEntry name entry).directory name = entry := Function.update_self ..

theorem directory_setEntry_of_ne {s : Store} {name name' : String} {entry : Option Inode}
    (h : name' ≠ name) : (s.setEntry name entry).directory name' = s.directory name' :=
  Function.update_of_ne h ..

/-- What a read of a whole file sees. -/
def readFile (s : Store) (name : String) : Option Bytes := (s.directory name).map s.content

/-- `create_new` of a name that is free. -/
def createFile (s : Store) (writer : Nat) (name : String) : Store :=
  { s with
    directory := Function.update s.directory name (some s.next)
    content := Function.update s.content s.next []
    author := Function.update s.author s.next (some writer)
    next := s.next + 1 }

def appendTo (s : Store) (inode : Inode) (bytes : Bytes) : Store :=
  { s with content := Function.update s.content inode (s.content inode ++ bytes) }

end Store

section Step

variable (setting : Setting)

/-- The steps of `secure_atomic_write` for one call, and of a reader. -/
inductive Step : Store → Event → Store → Prop where
  | begin {s w} : s.phase w = .idle → Step s (.call w) (s.setPhase w (.allocating 0))
  | refuse {s w} : s.phase w = .idle → Step s (.call w) (s.setPhase w .failed)
  | allocate {s w n} : s.phase w = .allocating n → n < maxAttempts →
      Step s (.call w)
        ({ s with
            sequence := Function.update s.sequence (setting.calls w).process
              (s.sequence (setting.calls w).process + 1) }.setPhase w
          (.creating n (temporaryName setting.fileName
            (setting.processId (setting.calls w).process)
            (s.sequence (setting.calls w).process))))
  | exhausted {s w n} : s.phase w = .allocating n → maxAttempts ≤ n →
      Step s (.call w) (s.setPhase w .failed)
  | occupied {s w n name ino} : s.phase w = .creating n name → s.directory name = some ino →
      Step s (.call w) (s.setPhase w (.allocating (n + 1)))
  | create {s w n name} : s.phase w = .creating n name → s.directory name = none →
      Step s (.call w) ((s.createFile w name).setPhase w (.writing name s.next 0))
  | createFails {s w n name} : s.phase w = .creating n name →
      Step s (.call w) (s.setPhase w .failed)
  | write {s w name ino k count} : s.phase w = .writing name ino k →
      k + count ≤ (setting.calls w).payload.length →
      Step s (.call w)
        ((s.appendTo ino (((setting.calls w).payload.drop k).take count)).setPhase w
          (.writing name ino (k + count)))
  | writeFails {s w name ino k} : s.phase w = .writing name ino k →
      Step s (.call w) (s.setPhase w .failed)
  | sync {s w name ino} : s.phase w = .writing name ino (setting.calls w).payload.length →
      Step s (.call w) (s.setPhase w (.created name ino))
  | rename {s w name ino} : s.phase w = .created name ino →
      Step s (.call w)
        (((s.setEntry setting.fileName (s.directory name)).setEntry name none).setPhase w .renamed)
  | renameFails {s w name ino} : s.phase w = .created name ino →
      Step s (.call w) (s.setPhase w (.discarding name ino))
  | remove {s w name ino} : s.phase w = .discarding name ino →
      Step s (.call w) ((s.setEntry name none).setPhase w .failed)
  | removeFails {s w name ino} : s.phase w = .discarding name ino →
      Step s (.call w) (s.setPhase w .failed)
  | finish {s w} : s.phase w = .renamed → Step s (.call w) (s.setPhase w .ok)
  | finishFails {s w} : s.phase w = .renamed → Step s (.call w) (s.setPhase w .failed)
  | kill {s w} : s.phase w ≠ .idle → s.phase w ≠ .ok → Step s (.call w) (s.setPhase w .killed)
  | openMissing {s r afterOk} : s.reader r = .idle → s.directory setting.fileName = none →
      (afterOk = true ↔ ∃ w, s.phase w = .ok) →
      Step s (.read r) (s.setReader r (.done none afterOk))
  | openFile {s r ino afterOk} : s.reader r = .idle → s.directory setting.fileName = some ino →
      (afterOk = true ↔ ∃ w, s.phase w = .ok) →
      Step s (.read r) (s.setReader r (.reading ino [] afterOk))
  | readChunk {s r ino data afterOk count} : s.reader r = .reading ino data afterOk →
      Step s (.read r)
        (s.setReader r
          (.reading ino (data ++ ((s.content ino).drop data.length).take count) afterOk))
  | endOfFile {s r ino data afterOk} : s.reader r = .reading ino data afterOk →
      (s.content ino).length ≤ data.length →
      Step s (.read r) (s.setReader r (.done (some data) afterOk))

/-- A directory that no call has touched. -/
structure Untouched (s : Store) : Prop where
  fresh : ∀ name ino, s.directory name = some ino → ino < s.next
  authorless : ∀ ino, s.author ino = none
  idle : ∀ w, s.phase w = .idle
  unread : ∀ r, s.reader r = .idle
  initial : s.readFile setting.fileName = setting.initial

def writeSystem : System Store Event :=
  { init := Untouched setting
    step := Step setting }

end Step

/-! ## What every step keeps -/

section Invariant

variable {setting : Setting} {s : Store}

/-- Nothing writes to the inode any more: it was there before, or a call has
put its whole payload there and given it up. -/
structure Settled (setting : Setting) (s : Store) (ino : Inode) : Prop where
  old : ino < s.next
  initial : s.author ino = none → setting.initial = some (s.content ino)
  whole : ∀ w, s.author ino = some w → s.content ino = (setting.calls w).payload ∧
    ∀ name k, (s.phase w).staging (setting.calls w) ≠ some (name, ino, k)

/-- What a reader has seen. -/
def Reader.Sound (setting : Setting) (s : Store) : Reader → Prop
  | .idle => True
  | .reading ino data afterOk =>
    Settled setting s ino ∧ data <+: s.content ino ∧ (afterOk = true → s.author ino ≠ none)
  | .done result afterOk =>
    (afterOk = false ∧ result = setting.initial) ∨
      ∃ w, s.phase w ≠ .idle ∧ result = some (setting.calls w).payload

structure Consistent (setting : Setting) (s : Store) : Prop where
  fresh : ∀ name ino, s.directory name = some ino → ino < s.next
  authored : ∀ ino, s.author ino ≠ none → ino < s.next
  begun : ∀ ino w, s.author ino = some w → s.phase w ≠ .idle
  single : ∀ name name' ino, s.directory name = some ino → s.directory name' = some ino →
    s.author ino ≠ none → name = name'
  candidate : ∀ w n name, s.phase w = .creating n name → name ≠ setting.fileName
  owned : ∀ w name ino k, (s.phase w).staging (setting.calls w) = some (name, ino, k) →
    s.directory name = some ino ∧ s.author ino = some w ∧ name ≠ setting.fileName ∧
      k ≤ (setting.calls w).payload.length ∧ s.content ino = (setting.calls w).payload.take k
  missing : s.directory setting.fileName = none → setting.initial = none
  target : ∀ ino, s.directory setting.fileName = some ino → Settled setting s ino
  replaced : ∀ w, s.phase w = .renamed ∨ s.phase w = .ok →
    ∃ ino, s.directory setting.fileName = some ino ∧ s.author ino ≠ none
  sound : ∀ r, (s.reader r).Sound setting s

theorem temporaryName_ne (fileName : String) (processId : UInt32) (sequence : UInt64) :
    temporaryName fileName processId sequence ≠ fileName := by
  intro h
  have hlength := congrArg String.length h
  simp only [temporaryName, String.length_append] at hlength
  have hdot : ".".length = 1 := rfl
  omega

theorem Untouched.consistent (h : Untouched setting s) : Consistent setting s where
  fresh := h.fresh
  authored ino hauthor := absurd (h.authorless ino) hauthor
  begun ino w hauthor := by simp [h.authorless] at hauthor
  single name name' ino _ _ hauthor := absurd (h.authorless ino) hauthor
  candidate w n name hphase := by simp [h.idle] at hphase
  owned w name ino k hstaging := by simp [h.idle, Phase.staging] at hstaging
  missing hnone := by rw [← h.initial, Store.readFile, hnone]; rfl
  target ino hentry :=
    { old := h.fresh _ ino hentry
      initial := fun _ => by rw [← h.initial, Store.readFile, hentry]; rfl
      whole := fun w hauthor => by simp [h.authorless] at hauthor }
  replaced w hphase := by simp [h.idle] at hphase
  sound r := by rw [h.unread]; trivial

theorem Settled.mono {s' : Store} {ino : Inode} (h : Settled setting s ino)
    (hnext : s.next ≤ s'.next) (hcontent : s'.content ino = s.content ino)
    (hauthor : s'.author ino = s.author ino)
    (hstaging : ∀ w name k, s.author ino = some w →
      (s'.phase w).staging (setting.calls w) = some (name, ino, k) →
      (s.phase w).staging (setting.calls w) = some (name, ino, k)) :
    Settled setting s' ino where
  old := h.old.trans_le hnext
  initial hnone := by
    rw [hcontent]
    exact h.initial (hauthor ▸ hnone)
  whole w hw := by
    rw [hauthor] at hw
    obtain ⟨hwhole, hfree⟩ := h.whole w hw
    exact ⟨hcontent.trans hwhole, fun name k hk => hfree name k (hstaging w name k hw hk)⟩

theorem staging_setPhase {w : Nat} {phase : Phase}
    (hstaging : phase.staging (setting.calls w) = none ∨
      phase.staging (setting.calls w) = (s.phase w).staging (setting.calls w))
    {v : Nat} {name : String} {ino : Inode} {k : Nat}
    (hv : ((s.setPhase w phase).phase v).staging (setting.calls v) = some (name, ino, k)) :
    (s.phase v).staging (setting.calls v) = some (name, ino, k) := by
  by_cases hvw : v = w
  · subst hvw
    rw [Store.phase_setPhase_self] at hv
    rcases hstaging with hnone | hsame
    · rw [hnone] at hv
      cases hv
    · exact hsame ▸ hv
  · rwa [Store.phase_setPhase_of_ne hvw] at hv

theorem Reader.Sound.mono {reader : Reader} {s' : Store} (h : reader.Sound setting s)
    (hsettled : ∀ ino, Settled setting s ino → Settled setting s' ino)
    (hcontent : ∀ ino, Settled setting s ino → s'.content ino = s.content ino)
    (hauthor : ∀ ino, Settled setting s ino → s'.author ino = s.author ino)
    (hphase : ∀ w, s.phase w ≠ .idle → s'.phase w ≠ .idle) : reader.Sound setting s' := by
  cases reader with
  | idle => trivial
  | reading ino data afterOk =>
      obtain ⟨hino, hdata, hafter⟩ := h
      refine ⟨hsettled ino hino, ?_, ?_⟩
      · rw [hcontent ino hino]
        exact hdata
      · rw [hauthor ino hino]
        exact hafter
  | done result afterOk =>
      exact h.imp_right (fun ⟨w, hw, hresult⟩ => ⟨w, hphase w hw, hresult⟩)

theorem phase_setPhase_ne_idle {w : Nat} {phase : Phase} (hphase : phase ≠ .idle) (v : Nat)
    (hv : s.phase v ≠ .idle) : (s.setPhase w phase).phase v ≠ .idle := by
  by_cases hvw : v = w
  · subst hvw
    rwa [Store.phase_setPhase_self]
  · rwa [Store.phase_setPhase_of_ne hvw]

theorem Consistent.setPhase (h : Consistent setting s) {w : Nat} {phase : Phase}
    (hidle : phase ≠ .idle)
    (hcandidate : ∀ n name, phase = .creating n name → name ≠ setting.fileName)
    (hstaging : phase.staging (setting.calls w) = none ∨
      phase.staging (setting.calls w) = (s.phase w).staging (setting.calls w))
    (hreplaced : phase = .renamed ∨ phase = .ok →
      ∃ ino, s.directory setting.fileName = some ino ∧ s.author ino ≠ none) :
    Consistent setting (s.setPhase w phase) where
  fresh := h.fresh
  authored := h.authored
  begun ino v hauthor := phase_setPhase_ne_idle hidle v (h.begun ino v hauthor)
  single := h.single
  candidate v n name hv := by
    by_cases hvw : v = w
    · subst hvw
      rw [Store.phase_setPhase_self] at hv
      exact hcandidate n name hv
    · rw [Store.phase_setPhase_of_ne hvw] at hv
      exact h.candidate v n name hv
  owned v name ino k hv := h.owned v name ino k (staging_setPhase hstaging hv)
  missing := h.missing
  target ino hentry := (h.target ino hentry).mono le_rfl rfl rfl
    (fun _ _ _ _ hv => staging_setPhase hstaging hv)
  replaced v hv := by
    by_cases hvw : v = w
    · subst hvw
      rw [Store.phase_setPhase_self] at hv
      exact hreplaced hv
    · rw [Store.phase_setPhase_of_ne hvw] at hv
      exact h.replaced v hv
  sound r := (h.sound r).mono
    (fun _ hino => hino.mono le_rfl rfl rfl (fun _ _ _ _ hv => staging_setPhase hstaging hv))
    (fun _ _ => rfl) (fun _ _ => rfl) (phase_setPhase_ne_idle hidle)

theorem Settled.frame {s' : Store} {ino : Inode} (h : Settled setting s ino)
    (hnext : s'.next = s.next) (hcontent : s'.content = s.content) (hauthor : s'.author = s.author)
    (hphase : s'.phase = s.phase) : Settled setting s' ino :=
  h.mono hnext.ge (congrFun hcontent ino) (congrFun hauthor ino)
    (fun _ _ _ _ hw => congrFun hphase _ ▸ hw)

theorem Reader.Sound.frame {reader : Reader} {s' : Store} (h : reader.Sound setting s)
    (hnext : s'.next = s.next) (hcontent : s'.content = s.content) (hauthor : s'.author = s.author)
    (hphase : s'.phase = s.phase) : reader.Sound setting s' :=
  h.mono (fun _ hino => hino.frame hnext hcontent hauthor hphase)
    (fun ino _ => congrFun hcontent ino) (fun ino _ => congrFun hauthor ino)
    (fun w hw => congrFun hphase w ▸ hw)

theorem Consistent.setSequence (h : Consistent setting s) (sequence : Nat → UInt64) :
    Consistent setting { s with sequence := sequence } where
  fresh := h.fresh
  authored := h.authored
  begun := h.begun
  single := h.single
  candidate := h.candidate
  owned := h.owned
  missing := h.missing
  target ino hentry := (h.target ino hentry).frame rfl rfl rfl rfl
  replaced := h.replaced
  sound r := (h.sound r).frame rfl rfl rfl rfl

theorem Consistent.setReader (h : Consistent setting s) {r : Nat} {reader : Reader}
    (hreader : reader.Sound setting s) : Consistent setting (s.setReader r reader) where
  fresh := h.fresh
  authored := h.authored
  begun := h.begun
  single := h.single
  candidate := h.candidate
  owned := h.owned
  missing := h.missing
  target ino hentry := (h.target ino hentry).frame rfl rfl rfl rfl
  replaced := h.replaced
  sound q := by
    by_cases hqr : q = r
    · subst hqr
      have hself : (s.setReader q reader).reader q = reader := Function.update_self ..
      rw [hself]
      exact hreader.frame rfl rfl rfl rfl
    · have hother : (s.setReader r reader).reader q = s.reader q := Function.update_of_ne hqr ..
      rw [hother]
      exact (h.sound q).frame rfl rfl rfl rfl

theorem Consistent.dropEntry (h : Consistent setting s) {name : String}
    (htarget : name ≠ setting.fileName)
    (hfree : ∀ w name' ino k,
      (s.phase w).staging (setting.calls w) = some (name', ino, k) → name' ≠ name) :
    Consistent setting (s.setEntry name none) := by
  have hentry : ∀ {name' ino}, (s.setEntry name none).directory name' = some ino →
      s.directory name' = some ino := by
    intro name' ino hname
    by_cases hne : name' = name
    · subst hne
      rw [Store.directory_setEntry_self] at hname
      cases hname
    · rwa [Store.directory_setEntry_of_ne hne] at hname
  refine
    { fresh := fun _ ino hname => h.fresh _ ino (hentry hname)
      authored := h.authored
      begun := h.begun
      single := fun _ _ ino hname hname' => h.single _ _ ino (hentry hname) (hentry hname')
      candidate := h.candidate
      owned := fun w name' ino k hw => ?_
      missing := fun hnone => h.missing
        (Store.directory_setEntry_of_ne htarget.symm ▸ hnone)
      target := fun ino hname => (h.target ino (hentry hname)).frame rfl rfl rfl rfl
      replaced := fun w hw => ?_
      sound := fun r => (h.sound r).frame rfl rfl rfl rfl }
  · rw [Store.directory_setEntry_of_ne (hfree w name' ino k hw)]
    exact h.owned w name' ino k hw
  · rw [Store.directory_setEntry_of_ne htarget.symm]
    exact h.replaced w hw

theorem Consistent.publish (h : Consistent setting s) {ino : Inode}
    (hsettled : Settled setting s ino) (hauthor : s.author ino ≠ none)
    (hfree : ∀ name, s.directory name ≠ some ino) :
    Consistent setting (s.setEntry setting.fileName (some ino)) := by
  have hself := s.directory_setEntry_self setting.fileName (some ino)
  -- an entry is the new target or was there before
  have hentry : ∀ {name ino'}, (s.setEntry setting.fileName (some ino)).directory name = some ino' →
      (name = setting.fileName ∧ ino' = ino) ∨ s.directory name = some ino' := by
    intro name ino' hname
    by_cases hne : name = setting.fileName
    · subst hne
      rw [hself] at hname
      exact .inl ⟨rfl, (Option.some.inj hname).symm⟩
    · exact .inr (Store.directory_setEntry_of_ne hne ▸ hname)
  refine
    { fresh := fun name ino' hname => ?_
      authored := h.authored
      begun := h.begun
      single := fun name name' ino' hname hname' hauthored => ?_
      candidate := h.candidate
      owned := fun w name ino' k hw => ?_
      missing := fun hnone => by rw [hself] at hnone; cases hnone
      target := fun ino' hname => ?_
      replaced := fun w _ => ⟨ino, hself, hauthor⟩
      sound := fun r => (h.sound r).frame rfl rfl rfl rfl }
  · rcases hentry hname with ⟨_, rfl⟩ | hold
    · exact hsettled.old
    · exact h.fresh name ino' hold
  · rcases hentry hname with ⟨rfl, rfl⟩ | hold
    · rcases hentry hname' with ⟨rfl, _⟩ | hold'
      · rfl
      · exact absurd hold' (hfree name')
    · rcases hentry hname' with ⟨_, rfl⟩ | hold'
      · exact absurd hold (hfree name)
      · exact h.single name name' ino' hold hold' hauthored
  · rw [Store.directory_setEntry_of_ne (h.owned w name ino' k hw).2.2.1]
    exact h.owned w name ino' k hw
  · rw [hself] at hname
    obtain rfl := Option.some.inj hname
    exact hsettled.frame rfl rfl rfl rfl

theorem Consistent.staging_inj (h : Consistent setting s) {v w : Nat} {name name' : String}
    {ino ino' : Inode} {k k' : Nat}
    (hv : (s.phase v).staging (setting.calls v) = some (name, ino, k))
    (hw : (s.phase w).staging (setting.calls w) = some (name', ino', k'))
    (hsame : name = name' ∨ ino = ino') : v = w := by
  obtain ⟨hentry, hauthor, _⟩ := h.owned v name ino k hv
  obtain ⟨hentry', hauthor', _⟩ := h.owned w name' ino' k' hw
  rcases hsame with rfl | rfl
  · rw [hentry] at hentry'
    obtain rfl := Option.some.inj hentry'
    exact Option.some.inj (hauthor.symm.trans hauthor')
  · exact Option.some.inj (hauthor.symm.trans hauthor')

theorem Consistent.create (h : Consistent setting s) {w n : Nat} {name : String}
    (hphase : s.phase w = .creating n name) (hfree : s.directory name = none) :
    Consistent setting ((s.createFile w name).setPhase w (.writing name s.next 0)) := by
  have hname := h.candidate w n name hphase
  have hdirectory : ∀ {name'}, name' ≠ name →
      (s.createFile w name).directory name' = s.directory name' :=
    fun hne => Function.update_of_ne hne ..
  have hself : (s.createFile w name).directory name = some s.next := Function.update_self ..
  have hauthor : ∀ {ino}, ino < s.next → (s.createFile w name).author ino = s.author ino :=
    fun hlt => Function.update_of_ne (Nat.ne_of_lt hlt) ..
  have hcontent : ∀ {ino}, ino < s.next → (s.createFile w name).content ino = s.content ino :=
    fun hlt => Function.update_of_ne (Nat.ne_of_lt hlt) ..
  have hauthorNew : (s.createFile w name).author s.next = some w := Function.update_self ..
  have hbusy : ∀ v, s.phase v ≠ .idle →
      ((s.createFile w name).setPhase w (.writing name s.next 0)).phase v ≠ .idle :=
    phase_setPhase_ne_idle (s := s.createFile w name) (by simp)
  -- an entry is the new one or an old one of an old inode
  have hentry : ∀ {name' ino}, (s.createFile w name).directory name' = some ino →
      (name' = name ∧ ino = s.next) ∨ (s.directory name' = some ino ∧ ino < s.next) := by
    intro name' ino hname'
    by_cases hne : name' = name
    · rw [hne, hself] at hname'
      exact .inl ⟨hne, (Option.some.inj hname').symm⟩
    · rw [hdirectory hne] at hname'
      exact .inr ⟨hname', h.fresh name' ino hname'⟩
  have hsettled : ∀ ino, Settled setting s ino →
      Settled setting ((s.createFile w name).setPhase w (.writing name s.next 0)) ino := by
    intro ino hino
    refine hino.mono (Nat.le_succ _) (hcontent hino.old) (hauthor hino.old) ?_
    intro v name' k _ hv
    by_cases hvw : v = w
    · rw [hvw, Store.phase_setPhase_self] at hv
      obtain ⟨_, rfl, _⟩ : name = name' ∧ s.next = ino ∧ 0 = k := by
        simpa [Phase.staging] using hv
      exact absurd hino.old (lt_irrefl _)
    · rwa [Store.phase_setPhase_of_ne hvw] at hv
  refine
    { fresh := fun name' ino hname' => ?_
      authored := fun ino hauthored => ?_
      begun := fun ino v hv => ?_
      single := fun name' name'' ino hname' hname'' hauthored => ?_
      candidate := fun v m name' hv => ?_
      owned := fun v name' ino k hv => ?_
      missing := fun hnone => h.missing (hdirectory hname.symm ▸ hnone)
      target := fun ino hino => hsettled ino (h.target ino (hdirectory hname.symm ▸ hino))
      replaced := fun v hv => ?_
      sound := fun r => (h.sound r).mono hsettled (fun _ hino => hcontent hino.old)
        (fun _ hino => hauthor hino.old) hbusy }
  · rcases hentry hname' with ⟨_, rfl⟩ | ⟨_, hlt⟩
    · exact Nat.lt_succ_self _
    · exact Nat.lt_succ_of_lt hlt
  · by_cases hlt : ino < s.next
    · exact Nat.lt_succ_of_lt hlt
    · have hne : ino = s.next := by
        by_contra hne
        have hold : s.author ino ≠ none := by
          intro hnone
          exact hauthored ((Function.update_of_ne hne ..).trans hnone)
        exact hlt (h.authored ino hold)
      rw [hne]
      exact Nat.lt_succ_self _
  · by_cases hnew : ino = s.next
    · subst hnew
      obtain rfl : w = v := Option.some.inj (hauthorNew.symm.trans hv)
      rw [Store.phase_setPhase_self]
      simp
    · exact hbusy v (h.begun ino v ((Function.update_of_ne hnew ..).symm.trans hv))
  · rcases hentry hname' with ⟨rfl, rfl⟩ | ⟨hold, hlt⟩
    · rcases hentry hname'' with ⟨rfl, _⟩ | ⟨_, hlt⟩
      · rfl
      · exact absurd hlt (lt_irrefl _)
    · rcases hentry hname'' with ⟨_, rfl⟩ | ⟨hold', _⟩
      · exact absurd hlt (lt_irrefl _)
      · exact h.single name' name'' ino hold hold' (hauthor hlt ▸ hauthored)
  · by_cases hvw : v = w
    · rw [hvw, Store.phase_setPhase_self] at hv
      cases hv
    · rw [Store.phase_setPhase_of_ne hvw] at hv
      exact h.candidate v m name' hv
  · by_cases hvw : v = w
    · subst hvw
      rw [Store.phase_setPhase_self] at hv
      obtain ⟨rfl, rfl, rfl⟩ : name = name' ∧ s.next = ino ∧ 0 = k := by
        simpa [Phase.staging] using hv
      exact ⟨hself, hauthorNew, hname, Nat.zero_le _, Function.update_self ..⟩
    · rw [Store.phase_setPhase_of_ne hvw] at hv
      obtain ⟨hold, hauthored, hrest⟩ := h.owned v name' ino k hv
      have hlt := h.fresh name' ino hold
      have hne : name' ≠ name := by
        rintro rfl
        rw [hfree] at hold
        cases hold
      refine ⟨(hdirectory hne).trans hold, (hauthor hlt).trans hauthored, hrest.1, hrest.2.1, ?_⟩
      exact (hcontent hlt).trans hrest.2.2
  · have hold : s.phase v = .renamed ∨ s.phase v = .ok := by
      by_cases hvw : v = w
      · rw [hvw, Store.phase_setPhase_self] at hv
        rcases hv with hv | hv <;> cases hv
      · rwa [Store.phase_setPhase_of_ne hvw] at hv
    obtain ⟨ino, hino, hauthored⟩ := h.replaced v hold
    refine ⟨ino, (hdirectory hname.symm).trans hino, ?_⟩
    exact (hauthor (h.fresh _ ino hino)).symm ▸ hauthored

theorem Consistent.write (h : Consistent setting s) {w k count : Nat} {name : String} {ino : Inode}
    (hphase : s.phase w = .writing name ino k)
    (hcount : k + count ≤ (setting.calls w).payload.length) :
    Consistent setting
      ((s.appendTo ino (((setting.calls w).payload.drop k).take count)).setPhase w
        (.writing name ino (k + count))) := by
  have hstaging : (s.phase w).staging (setting.calls w) = some (name, ino, k) := by
    rw [hphase]
    rfl
  obtain ⟨hentry, hauthor, hname, _, hcontent⟩ := h.owned w name ino k hstaging
  have hother : ∀ {ino'}, ino' ≠ ino →
      (s.appendTo ino (((setting.calls w).payload.drop k).take count)).content ino' =
        s.content ino' := fun hne => Function.update_of_ne hne ..
  -- what is settled is not the temporary
  have hne : ∀ {ino'}, Settled setting s ino' → ino' ≠ ino := by
    rintro _ hino rfl
    exact (hino.whole w hauthor).2 name k hstaging
  have hsettled : ∀ ino', Settled setting s ino' → Settled setting
      ((s.appendTo ino (((setting.calls w).payload.drop k).take count)).setPhase w
        (.writing name ino (k + count))) ino' := by
    intro ino' hino
    refine hino.mono le_rfl (hother (hne hino)) rfl ?_
    intro v name' k' _ hv
    by_cases hvw : v = w
    · rw [hvw, Store.phase_setPhase_self] at hv
      obtain ⟨_, rfl, _⟩ : name = name' ∧ ino = ino' ∧ k + count = k' := by
        simpa [Phase.staging] using hv
      exact absurd rfl (hne hino)
    · rwa [Store.phase_setPhase_of_ne hvw] at hv
  have hbusy : ∀ v, s.phase v ≠ .idle →
      ((s.appendTo ino (((setting.calls w).payload.drop k).take count)).setPhase w
        (.writing name ino (k + count))).phase v ≠ .idle :=
    phase_setPhase_ne_idle (s := s.appendTo ino _) (by simp)
  refine
    { fresh := h.fresh
      authored := h.authored
      begun := fun ino' v hv => hbusy v (h.begun ino' v hv)
      single := h.single
      candidate := fun v m name' hv => ?_
      owned := fun v name' ino' k' hv => ?_
      missing := h.missing
      target := fun ino' hino => hsettled ino' (h.target ino' hino)
      replaced := fun v hv => ?_
      sound := fun r => (h.sound r).mono hsettled (fun _ hino => hother (hne hino))
        (fun _ _ => rfl) hbusy }
  · by_cases hvw : v = w
    · rw [hvw, Store.phase_setPhase_self] at hv
      cases hv
    · rw [Store.phase_setPhase_of_ne hvw] at hv
      exact h.candidate v m name' hv
  · by_cases hvw : v = w
    · subst hvw
      rw [Store.phase_setPhase_self] at hv
      obtain ⟨rfl, rfl, rfl⟩ : name = name' ∧ ino = ino' ∧ k + count = k' := by
        simpa [Phase.staging] using hv
      refine ⟨hentry, hauthor, hname, hcount, ?_⟩
      rw [List.take_add, ← hcontent]
      exact Function.update_self ..
    · rw [Store.phase_setPhase_of_ne hvw] at hv
      have hino : ino' ≠ ino := fun heq => hvw (h.staging_inj hv hstaging (.inr heq))
      obtain ⟨hold, hauthored, hname', hk', hold'⟩ := h.owned v name' ino' k' hv
      exact ⟨hold, hauthored, hname', hk', (hother hino).trans hold'⟩
  · by_cases hvw : v = w
    · rw [hvw, Store.phase_setPhase_self] at hv
      rcases hv with hv | hv <;> cases hv
    · rw [Store.phase_setPhase_of_ne hvw] at hv
      exact h.replaced v hv

theorem Consistent.remove (h : Consistent setting s) {w k : Nat} {name : String} {ino : Inode}
    (hstaging : (s.phase w).staging (setting.calls w) = some (name, ino, k)) :
    Consistent setting ((s.setPhase w .failed).setEntry name none) := by
  have hfailed : Consistent setting (s.setPhase w .failed) :=
    h.setPhase (by simp) (by simp) (.inl rfl) (by simp)
  refine hfailed.dropEntry (h.owned w name ino k hstaging).2.2.1 ?_
  intro v name' ino' k' hv hname
  have hvw : v ≠ w := by
    rintro rfl
    rw [Store.phase_setPhase_self] at hv
    cases hv
  rw [Store.phase_setPhase_of_ne hvw] at hv
  exact hvw (h.staging_inj hv hstaging (.inl hname))

theorem Consistent.rename (h : Consistent setting s) {w : Nat} {name : String} {ino : Inode}
    (hphase : s.phase w = .created name ino) :
    Consistent setting (((s.setEntry setting.fileName (s.directory name)).setEntry name
      none).setPhase w .renamed) := by
  have hstaging : (s.phase w).staging (setting.calls w) =
      some (name, ino, (setting.calls w).payload.length) := by
    rw [hphase]
    rfl
  obtain ⟨hentry, hauthor, hname, _, hcontent⟩ := h.owned w name ino _ hstaging
  rw [List.take_length] at hcontent
  have hdropped := h.remove hstaging
  have hauthored : s.author ino ≠ none := by simp [hauthor]
  have hsettled : Settled setting ((s.setPhase w .failed).setEntry name none) ino := by
    refine ⟨h.fresh name ino hentry, fun hnone => absurd hnone hauthored, ?_⟩
    intro v hv
    obtain rfl : w = v := Option.some.inj (hauthor.symm.trans hv)
    refine ⟨hcontent, fun name' k hk => ?_⟩
    have hfailed : ((s.setPhase w .failed).setEntry name none).phase w = .failed :=
      s.phase_setPhase_self w .failed
    rw [hfailed] at hk
    cases hk
  have hfree : ∀ name', ((s.setPhase w .failed).setEntry name none).directory name' ≠ some ino := by
    intro name' hname'
    by_cases hne : name' = name
    · rw [hne, Store.directory_setEntry_self] at hname'
      cases hname'
    · rw [Store.directory_setEntry_of_ne hne] at hname'
      exact hne (h.single name' name ino hname' hentry hauthored)
  have hpublished := hdropped.publish hsettled hauthored hfree
  have hrenamed : Consistent setting ((((s.setPhase w .failed).setEntry name none).setEntry
      setting.fileName (some ino)).setPhase w .renamed) :=
    hpublished.setPhase (by simp) (by simp) (.inl rfl)
      (fun _ => ⟨ino, Store.directory_setEntry_self .., hauthored⟩)
  have hsame : ((s.setEntry setting.fileName (s.directory name)).setEntry name none).setPhase w
      .renamed = ((((s.setPhase w .failed).setEntry name none).setEntry setting.fileName
        (some ino)).setPhase w .renamed) := by
    rw [hentry]
    simp only [Store.setPhase, Store.setEntry, Function.update_idem,
      Function.update_comm hname]
  rw [hsame]
  exact hrenamed

/-- What a reader has read so far is a prefix of what it opened. -/
theorem prefix_readChunk {data content : Bytes} (h : data <+: content) (count : Nat) :
    data ++ (content.drop data.length).take count <+: content := by
  obtain ⟨rest, rfl⟩ := h
  rw [List.drop_left, List.prefix_append_right_inj]
  exact List.take_prefix _ _

theorem Consistent.step (h : Consistent setting s) {event : Event} {s' : Store}
    (hstep : Step setting s event s') : Consistent setting s' := by
  cases hstep with
  | begin _ => exact h.setPhase (by simp) (by simp) (.inl rfl) (by simp)
  | refuse _ => exact h.setPhase (by simp) (by simp) (.inl rfl) (by simp)
  | allocate _ _ =>
      refine (h.setSequence _).setPhase (by simp) ?_ (.inl rfl) (by simp)
      intro n name hcreating
      obtain ⟨_, rfl⟩ := Phase.creating.inj hcreating
      exact temporaryName_ne _ _ _
  | exhausted _ _ => exact h.setPhase (by simp) (by simp) (.inl rfl) (by simp)
  | occupied _ _ => exact h.setPhase (by simp) (by simp) (.inl rfl) (by simp)
  | create hphase hfree => exact h.create hphase hfree
  | createFails _ => exact h.setPhase (by simp) (by simp) (.inl rfl) (by simp)
  | write hphase hcount => exact h.write hphase hcount
  | writeFails _ => exact h.setPhase (by simp) (by simp) (.inl rfl) (by simp)
  | sync hphase => exact h.setPhase (by simp) (by simp) (.inr (by rw [hphase]; rfl)) (by simp)
  | rename hphase => exact h.rename hphase
  | renameFails hphase =>
      exact h.setPhase (by simp) (by simp) (.inr (by rw [hphase]; rfl)) (by simp)
  | @remove w name ino hphase =>
      have hstaging : (s.phase w).staging (setting.calls w) =
          some (name, ino, (setting.calls w).payload.length) := by
        rw [hphase]
        rfl
      exact h.remove hstaging
  | removeFails _ => exact h.setPhase (by simp) (by simp) (.inl rfl) (by simp)
  | @finish w hphase =>
      exact h.setPhase (by simp) (by simp) (.inl rfl) (fun _ => h.replaced w (.inl hphase))
  | finishFails _ => exact h.setPhase (by simp) (by simp) (.inl rfl) (by simp)
  | kill _ _ => exact h.setPhase (by simp) (by simp) (.inl rfl) (by simp)
  | @openMissing r afterOk _ hmissing hafter =>
      refine h.setReader (.inl ⟨?_, (h.missing hmissing).symm⟩)
      rw [← Bool.not_eq_true]
      intro htrue
      obtain ⟨w, hw⟩ := hafter.mp htrue
      obtain ⟨ino, hino, _⟩ := h.replaced w (.inr hw)
      rw [hmissing] at hino
      cases hino
  | @openFile r ino afterOk _ hentry hafter =>
      refine h.setReader ⟨h.target ino hentry, List.nil_prefix, ?_⟩
      intro htrue
      obtain ⟨w, hw⟩ := hafter.mp htrue
      obtain ⟨ino', hino', hauthored⟩ := h.replaced w (.inr hw)
      rw [hentry] at hino'
      obtain rfl := Option.some.inj hino'
      exact hauthored
  | @readChunk r ino data afterOk count hreader =>
      have hsound := h.sound r
      rw [hreader] at hsound
      obtain ⟨hsettled, hdata, hafter⟩ := hsound
      exact h.setReader ⟨hsettled, prefix_readChunk hdata count, hafter⟩
  | @endOfFile r ino data afterOk hreader hlength =>
      have hsound := h.sound r
      rw [hreader] at hsound
      obtain ⟨hsettled, hdata, hafter⟩ := hsound
      obtain rfl : data = s.content ino := hdata.eq_of_length_le hlength
      refine h.setReader ?_
      cases hauthor : s.author ino with
      | none =>
          refine .inl ⟨?_, (hsettled.initial hauthor).symm⟩
          rw [← Bool.not_eq_true]
          exact fun htrue => hafter htrue hauthor
      | some w =>
          exact .inr ⟨w, h.begun ino w hauthor, congrArg some (hsettled.whole w hauthor).1⟩

/-- Every read of the target sees what was there first or the whole payload of
one call, and only such payloads once a call has returned `Ok`. -/
theorem secureAtomicWrite_atomic {history : List (Store × Event)}
    (hrun : (writeSystem setting).Run history s) :
    (s.readFile setting.fileName = setting.initial ∨
        ∃ w, s.phase w ≠ .idle ∧ s.readFile setting.fileName = some (setting.calls w).payload) ∧
      ((∃ w, s.phase w = .ok) → ∃ w ino, s.directory setting.fileName = some ino ∧
        s.author ino = some w ∧ s.content ino = (setting.calls w).payload) ∧
      ∀ r result afterOk, s.reader r = .done result afterOk →
        (afterOk = false ∧ result = setting.initial) ∨
          ∃ w, s.phase w ≠ .idle ∧ result = some (setting.calls w).payload := by
  have h : Consistent setting s :=
    hrun.invariant (I := Consistent setting) (fun _ hinit => Untouched.consistent hinit)
      (fun _ _ _ hs hstep => hs.step hstep)
  refine ⟨?_, ?_, ?_⟩
  · cases hentry : s.directory setting.fileName with
    | none => exact .inl (by rw [Store.readFile, hentry, h.missing hentry]; rfl)
    | some ino =>
        have hsettled := h.target ino hentry
        rw [Store.readFile, hentry, Option.map_some]
        cases hauthor : s.author ino with
        | none => exact .inl (hsettled.initial hauthor).symm
        | some w =>
            exact .inr ⟨w, h.begun ino w hauthor, congrArg some (hsettled.whole w hauthor).1⟩
  · rintro ⟨w, hw⟩
    obtain ⟨ino, hentry, hauthored⟩ := h.replaced w (.inr hw)
    obtain ⟨author, hauthor⟩ := Option.ne_none_iff_exists'.mp hauthored
    exact ⟨author, ino, hentry, hauthor, ((h.target ino hentry).whole author hauthor).1⟩
  · intro r result afterOk hreader
    have hsound := h.sound r
    rw [hreader] at hsound
    exact hsound

end Invariant

/-! ### One call in an empty directory -/

def sampleSetting : Setting :=
  { calls := fun _ => { process := 0, payload := [1] }
    processId := fun _ => 7
    fileName := "state.json"
    initial := none }

def emptyStore : Store :=
  { directory := fun _ => none
    content := fun _ => []
    author := fun _ => none
    next := 0
    sequence := fun _ => 0
    phase := fun _ => .idle
    reader := fun _ => .idle }

theorem untouched_emptyStore : Untouched sampleSetting emptyStore where
  fresh name ino hentry := by cases hentry
  authorless _ := rfl
  idle _ := rfl
  unread _ := rfl
  initial := rfl

theorem sample_next {s s' : Store} {event : Event}
    (h : ∃ history, (writeSystem sampleSetting).Run history s)
    (hstep : Step sampleSetting s event s') :
    ∃ history, (writeSystem sampleSetting).Run history s' :=
  h.imp' _ (fun _ hrun => hrun.next hstep)

theorem sample_call_returns :
    ∃ s, (∃ history, (writeSystem sampleSetting).Run history s) ∧ s.phase 0 = .ok := by
  have hstart : ∃ history, (writeSystem sampleSetting).Run history emptyStore :=
    ⟨[], .start untouched_emptyStore⟩
  have hallocating := sample_next hstart (.begin (w := 0) rfl)
  have hcreating := sample_next hallocating (.allocate (w := 0) (n := 0) rfl (by decide))
  have hwriting := sample_next hcreating (.create (w := 0) rfl rfl)
  have hwritten := sample_next hwriting (@Step.write sampleSetting _ 0 _ 0 0 1 rfl (by decide))
  have hcreated := sample_next hwritten (.sync (w := 0) rfl)
  have hrenamed := sample_next hcreated (.rename (w := 0) rfl)
  exact ⟨_, sample_next hrenamed (.finish (w := 0) rfl), rfl⟩

theorem secureAtomicWrite_atomic_sample :
    ∃ history s, (writeSystem sampleSetting).Run history s ∧
      ∃ w ino, s.directory "state.json" = some ino ∧ s.author ino = some w ∧
        s.content ino = [1] := by
  obtain ⟨s, ⟨history, hrun⟩, hok⟩ := sample_call_returns
  exact ⟨history, s, hrun, (secureAtomicWrite_atomic hrun).2.1 ⟨0, hok⟩⟩

end A3sBench.StateFs
