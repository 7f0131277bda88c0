import A3sBench.Library.ShellWords

/-!
# The command line of a batch Judge

`legacy_judge.rs` hands one line to `bash -c`: it copies the submission over the
workspace of the Judge and runs the command of the descriptor under a timeout.
The paths and the command may contain anything.
-/

namespace A3sBench.LegacyJudge

open Library Library.ShellWords

def nonLoginBash (command : String) : List String := ["/bin/bash", "-c", command]

def shellQuote (value : String) : String :=
  "'" ++ String.ofList (value.toList.flatMap (fun c =>
    if c = '\'' then "'\"'\"'".toList else [c])) ++ "'"

def buildTimeoutRunner (timeoutSec : UInt64) (command : String) : String :=
  "timeout --kill-after=10 " ++ toString timeoutSec.toNat ++ " /bin/bash -c " ++ shellQuote command

/-- `trim_end_matches('/')`. -/
def trimEndSlashes (path : String) : String := String.ofList (path.toList.rdropWhile (· = '/'))

def legacyJudgeCommand (source destination timeoutRunner : String) : String :=
  "cp -R " ++ shellQuote (trimEndSlashes source ++ "/.") ++ " " ++ shellQuote destination ++
    "/ && " ++ timeoutRunner

theorem toList_shellQuote (value : String) : (shellQuote value).toList = quote value.toList := by
  simp only [shellQuote, String.toList_append, String.toList_ofList]
  rfl

theorem plain_of_isDigit {c : Char} (hc : c.isDigit = true) : plain c = true := by
  rw [plain, Char.isAlphanum, hc, Bool.or_true, Bool.true_or]

theorem all_plain_toString (n : ℕ) :
    (toString n).toList ≠ [] ∧ (toString n).toList.all plain = true := by
  change (Nat.repr n).toList ≠ [] ∧ (Nat.repr n).toList.all plain = true
  rw [Nat.toList_repr]
  refine ⟨Nat.toDigits_ne_nil, List.all_eq_true.mpr fun c hc => plain_of_isDigit ?_⟩
  exact Nat.isDigit_of_mem_toDigits (by decide) (by decide) hc

/-- The line as it is written, word by word. -/
def judgeWords (source destination : String) (timeoutSec : UInt64) (command : String) :
    List (List (List Piece)) :=
  [[[.bare "cp".toList], [.bare "-R".toList], [.quoted (trimEndSlashes source ++ "/.").toList],
      [.quoted destination.toList, .bare "/".toList]],
    [[.bare "timeout".toList], [.bare "--kill-after=10".toList],
      [.bare (toString timeoutSec.toNat).toList], [.bare "/bin/bash".toList], [.bare "-c".toList],
      [.quoted command.toList]]]

theorem toList_legacyJudgeCommand (source destination : String) (timeoutSec : UInt64)
    (command : String) :
    (legacyJudgeCommand source destination (buildTimeoutRunner timeoutSec command)).toList =
      renderCommands (judgeWords source destination timeoutSec command) := by
  have hcopy : "cp -R ".toList = "cp".toList ++ ' ' :: ("-R".toList ++ [' ']) := rfl
  have hand : "/ && ".toList = "/".toList ++ [' ', '&', '&', ' '] := rfl
  have htimeout : "timeout --kill-after=10 ".toList =
      "timeout".toList ++ ' ' :: ("--kill-after=10".toList ++ [' ']) := rfl
  have hbash : " /bin/bash -c ".toList =
      ' ' :: ("/bin/bash".toList ++ ' ' :: ("-c".toList ++ [' '])) := rfl
  have hspace : " ".toList = [' '] := rfl
  unfold legacyJudgeCommand buildTimeoutRunner
  simp only [String.toList_append, toList_shellQuote]
  rw [hcopy, hand, htimeout, hbash, hspace]
  simp only [judgeWords, renderCommands, renderCommand, renderWord, Piece.render,
    List.flatMap_cons, List.flatMap_nil, List.append_nil, List.append_assoc, List.cons_append,
    List.nil_append, String.toList_append]

theorem written_bare {text : List Char} (htext : text ≠ [] ∧ text.all plain = true) :
    [Piece.bare text] ≠ [] ∧ ∀ piece ∈ [Piece.bare text], piece.Written :=
  ⟨List.cons_ne_nil _ _, List.forall_mem_singleton.mpr htext⟩

theorem written_quoted (text : List Char) :
    [Piece.quoted text] ≠ [] ∧ ∀ piece ∈ [Piece.quoted text], piece.Written :=
  ⟨List.cons_ne_nil _ _, List.forall_mem_singleton.mpr trivial⟩

theorem written_judgeWords (source destination : String) (timeoutSec : UInt64) (command : String) :
    ∀ words ∈ judgeWords source destination timeoutSec command, Written words := by
  unfold judgeWords
  refine List.forall_mem_cons.mpr ⟨⟨?_, rfl⟩, List.forall_mem_singleton.mpr ⟨?_, rfl⟩⟩
  · refine List.forall_mem_cons.mpr ⟨written_bare (by decide), List.forall_mem_cons.mpr
      ⟨written_bare (by decide), List.forall_mem_cons.mpr ⟨written_quoted _, ?_⟩⟩⟩
    refine List.forall_mem_singleton.mpr ⟨List.cons_ne_nil _ _, List.forall_mem_cons.mpr
      ⟨trivial, List.forall_mem_singleton.mpr ?_⟩⟩
    exact show "/".toList ≠ [] ∧ "/".toList.all plain = true by decide
  · exact List.forall_mem_cons.mpr ⟨written_bare (by decide), List.forall_mem_cons.mpr
      ⟨written_bare (by decide), List.forall_mem_cons.mpr ⟨written_bare (all_plain_toString _),
        List.forall_mem_cons.mpr ⟨written_bare (by decide), List.forall_mem_cons.mpr
          ⟨written_bare (by decide), List.forall_mem_singleton.mpr (written_quoted _)⟩⟩⟩⟩⟩

/-- The shell copies exactly the submission to exactly the workspace, and runs exactly the command
of the descriptor under the timeout. -/
theorem bash_reads_judge_command (source destination : String) (timeoutSec : UInt64)
    (command : String) :
    ∃ line, nonLoginBash (legacyJudgeCommand source destination
        (buildTimeoutRunner timeoutSec command)) = ["/bin/bash", "-c", line] ∧
      commands line.toList =
        some ([["cp", "-R", trimEndSlashes source ++ "/.", destination ++ "/"],
          "timeout" :: "--kill-after=10" :: toString timeoutSec.toNat :: nonLoginBash command].map
            (fun words => words.map String.toList)) := by
  refine ⟨_, rfl, ?_⟩
  have hne : judgeWords source destination timeoutSec command ≠ [] := List.cons_ne_nil _ _
  rw [toList_legacyJudgeCommand, commands_renderCommands hne (written_judgeWords _ _ _ _)]
  simp [judgeWords, nonLoginBash, wordText, Piece.text]

end A3sBench.LegacyJudge
