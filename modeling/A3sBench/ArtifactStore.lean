import A3sBench.TaskSnapshot
import Mathlib

/-!
# The artifact store

`capture` publishes the files of a tree under the digest of their stream. An
artifact that is already there is only verified.
-/

namespace A3sBench.TaskSnapshot

/-- The directories below `artifacts`, by name. -/
abbrev ArtifactStore := List Char → Option Directory

/-- `task_snapshot::artifact_path`. -/
def artifactPath (digest : String) : Result (List Char) :=
  digestHexWith "artifact digest must use sha256" "invalid artifact digest" digest

def sourceChanged : String := "source_changed: Task source changed during capture"

/-- The listed files copied to the staging directory. The owner-only modes they
are given keep the executable bit. -/
def stage (source : Directory) : List Path → Directory → Result Directory
  | [], staging => .ok staging
  | relative :: rest, staging => do
    let (executable, content) ← context sourceChanged
      (okOr (source.fileAt relative) "No such file or directory (os error 2)")
    stage source rest
      (staging.insertFile { content := content, executable := executable, links := 1 } relative)

def ensureStableGeneration (os : Platform) (source staging : Directory) (initialFiles : List Path)
    (initialDigest : String) : Result Unit := do
  let capturedFiles ← collect os staging
  let capturedDigest ← treeDigest os staging capturedFiles
  let finalFiles ← context sourceChanged (collect os source)
  let finalDigest ← context sourceChanged (treeDigest os source finalFiles)
  ensure (initialFiles = finalFiles ∧ initialDigest = capturedDigest ∧
      initialDigest = finalDigest) sourceChanged

/-- `capture_with_hook`; the hook is what happens to the source after its first
reading. Sealing keeps the executable bit and changes nothing else here. -/
def captureWithHook (os : Platform) (afterRead : Directory → Directory) (source : Directory)
    (store : ArtifactStore) : Result (String × ArtifactStore) := do
  let files ← collect os source
  let digest ← treeDigest os source files
  let hex ← artifactPath digest
  match store hex with
  | some artifact =>
    verify os (some artifact) digest
    pure (digest, store)
  | none =>
    let source := afterRead source
    let staging ← stage source files .empty
    ensureStableGeneration os source staging files digest
    context "published artifact failed verification" (verify os (some staging) digest)
    pure (digest, Function.update store hex (some staging))

/-- `task_snapshot::capture`. -/
def capture (os : Platform) (source : Directory) (store : ArtifactStore) :
    Result (String × ArtifactStore) :=
  captureWithHook os id source store

/-- What a capture returns names an artifact that passes verification. -/
theorem verify_of_captureWithHook {os : Platform} {afterRead : Directory → Directory}
    {source : Directory} {store store' : ArtifactStore} {digest : String}
    (h : captureWithHook os afterRead source store = .ok (digest, store')) :
    ∃ hex, artifactPath digest = .ok hex ∧ verify os (store' hex) digest = .ok () := by
  obtain ⟨files, _, h⟩ := Result.bind_ok_iff.mp h
  obtain ⟨actual, _, h⟩ := Result.bind_ok_iff.mp h
  obtain ⟨hex, hhex, h⟩ := Result.bind_ok_iff.mp h
  split at h
  · rename_i artifact hartifact
    obtain ⟨_, hverify, h⟩ := Result.bind_ok_iff.mp h
    obtain ⟨rfl, rfl⟩ := Prod.mk.inj (Result.pure_ok_iff.mp h)
    exact ⟨hex, hhex, hartifact ▸ hverify⟩
  · obtain ⟨staging, _, h⟩ := Result.bind_ok_iff.mp h
    obtain ⟨_, _, h⟩ := Result.bind_ok_iff.mp h
    obtain ⟨_, hverify, h⟩ := Result.bind_ok_iff.mp h
    obtain ⟨rfl, rfl⟩ := Prod.mk.inj (Result.pure_ok_iff.mp h)
    exact ⟨hex, hhex, by rw [Function.update_self]; exact Result.context_ok_iff.mp hverify⟩

/-- Capturing a tree that is already published changes nothing. -/
theorem capture_of_published {os : Platform} {source : Directory} {store : ArtifactStore}
    {stream : Bytes} {hex : List Char} (hstream : snapshotStream os source = .ok stream)
    (hhex : artifactPath ("sha256:" ++ os.sha256 stream) = .ok hex)
    (hstore : store hex = some source) :
    capture os source store = .ok ("sha256:" ++ os.sha256 stream, store) := by
  have hverify := verify_of_snapshotStream hstream
  obtain ⟨files, hfiles, htree⟩ := Result.bind_ok_iff.mp hstream
  simp only [capture, captureWithHook, treeDigest, Result.bind_ok_iff, Result.pure_ok_iff]
  refine ⟨files, hfiles, _, ⟨stream, htree, rfl⟩, hex, hhex, ?_⟩
  simp only [hstore, hverify, Result.bind_ok_iff, Result.exists_unit_iff, Result.pure_ok_iff,
    and_self]

end A3sBench.TaskSnapshot
