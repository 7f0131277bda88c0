import Mathlib

/-!
# Reading a shell command line

How a POSIX shell takes a line apart that has nothing but plain words, the two
kinds of quotes and `&&`. A line with anything else, such as an expansion or
another operator, is not read at all.
-/

namespace A3sBench.Library.ShellWords

/-- Where the reader stands: outside quotes, between them, or behind one `&`. -/
inductive Place where
  | bare
  | single
  | double
  | ampersand

inductive Token where
  | word (text : List Char)
  | andIf
  deriving DecidableEq

/-- Outside quotes the shell takes the character as it is. -/
def plain (c : Char) : Bool :=
  c.isAlphanum || ['/', '.', '-', '_', '=', ':', ',', '+', '@'].any (fun other => c == other)

/-- Between double quotes the character is still special. -/
def active (c : Char) : Bool := ['$', '`', '\\', '!'].any (fun other => c == other)

/-- The word so far, if there is one, ends here. -/
def close (word : Option (List Char)) (rest : List Token) : List Token :=
  word.elim rest (fun text => .word text :: rest)

/-- The word so far with one more character. -/
def extend (word : Option (List Char)) (text : List Char) : Option (List Char) :=
  some (word.getD [] ++ text)

/-- The tokens of a line, from the middle of it on. -/
def tokens : Place → Option (List Char) → List Char → Option (List Token)
  | .bare, word, [] => some (close word [])
  | .single, _, [] => none
  | .double, _, [] => none
  | .ampersand, _, [] => none
  | .bare, word, c :: line =>
    if c = '\'' then tokens .single (extend word []) line
    else if c = '"' then tokens .double (extend word []) line
    else if c = ' ' then (tokens .bare none line).map (close word)
    else if c = '&' then tokens .ampersand word line
    else if plain c = true then tokens .bare (extend word [c]) line
    else none
  | .single, word, c :: line =>
    if c = '\'' then tokens .bare word line else tokens .single (extend word [c]) line
  | .double, word, c :: line =>
    if c = '"' then tokens .bare word line
    else if active c = true then none
    else tokens .double (extend word [c]) line
  | .ampersand, word, c :: line =>
    if c = '&' then (tokens .bare none line).map (fun rest => close word (.andIf :: rest)) else none

/-- Words that start something other than a simple command. -/
def reserved : List (List Char) :=
  ["if", "then", "else", "elif", "fi", "for", "in", "case", "esac", "while", "until", "do", "done",
    "select", "function", "time", "coproc"].map String.toList

/-- The words of a simple command; an assignment in front of it is not read. -/
def simpleCommand : List (List Char) → Option (List (List Char))
  | [] => none
  | name :: arguments =>
    if reserved.any (fun word => word == name) || name.any (fun c => c == '=') then none
    else some (name :: arguments)

/-- The simple commands that `&&` joins, the first of which has the given words so far. -/
def joined : List (List Char) → List Token → Option (List (List (List Char)))
  | words, [] => (simpleCommand words).map (fun command => [command])
  | words, .word text :: rest => joined (words ++ [text]) rest
  | words, .andIf :: rest => do
    let command ← simpleCommand words
    let commands ← joined [] rest
    pure (command :: commands)

/-- The commands of a line that run one after the other, each with its arguments. -/
def commands (line : List Char) : Option (List (List (List Char))) :=
  tokens .bare none line >>= joined []

/-- A text between single quotes, with each of its own between double quotes. -/
def quote (text : List Char) : List Char :=
  '\'' :: text.flatMap (fun c => if c = '\'' then ['\'', '"', '\'', '"', '\''] else [c]) ++ ['\'']

/-- A piece of a word as it is written. -/
inductive Piece where
  | bare (text : List Char)
  | quoted (text : List Char)

namespace Piece

def text : Piece → List Char
  | bare text => text
  | quoted text => text

def render : Piece → List Char
  | bare text => text
  | quoted text => quote text

/-- A bare piece has characters, all of them plain. -/
def Written : Piece → Prop
  | bare text => text ≠ [] ∧ text.all plain = true
  | quoted _ => True

end Piece

/-- The word that adjoining pieces make. -/
def wordText (pieces : List Piece) : List Char := pieces.flatMap Piece.text

def renderWord (pieces : List Piece) : List Char := pieces.flatMap Piece.render

def renderCommand : List (List Piece) → List Char
  | [] => []
  | word :: words => renderWord word ++ words.flatMap (fun word => ' ' :: renderWord word)

def renderCommands : List (List (List Piece)) → List Char
  | [] => []
  | command :: commands =>
    renderCommand command ++ commands.flatMap (fun command => ' ' :: '&' :: '&' :: ' ' ::
      renderCommand command)

/-- Every word has pieces, and the words make a simple command. -/
structure Written (command : List (List Piece)) : Prop where
  pieces : ∀ word ∈ command, word ≠ [] ∧ ∀ piece ∈ word, piece.Written
  simple : simpleCommand (command.map wordText) = some (command.map wordText)

section Tokens

variable {word : Option (List Char)} {line : List Char}

@[simp] theorem extend_extend (word : Option (List Char)) (text more : List Char) :
    extend (extend word text) more = extend word (text ++ more) := by
  simp [extend]

theorem close_extend (word : Option (List Char)) (text : List Char) (rest : List Token) :
    close (extend word text) rest = .word (word.getD [] ++ text) :: rest := rfl

theorem tokens_plain {c : Char} (hc : plain c = true) :
    tokens .bare word (c :: line) = tokens .bare (extend word [c]) line := by
  have hspecial : ∀ other : Char, plain other = false → c ≠ other := by
    rintro other hother rfl
    rw [hc] at hother
    cases hother
  rw [tokens, if_neg (hspecial _ (by decide)), if_neg (hspecial _ (by decide)),
    if_neg (hspecial _ (by decide)), if_neg (hspecial _ (by decide)), if_pos hc]

theorem tokens_single_open :
    tokens .bare word ('\'' :: line) = tokens .single (extend word []) line := by
  rw [tokens, if_pos rfl]

theorem tokens_single_close : tokens .single word ('\'' :: line) = tokens .bare word line := by
  rw [tokens, if_pos rfl]

/-- A single quote between double quotes is a character of the word. -/
theorem tokens_double_quoted :
    tokens .bare word ('"' :: '\'' :: '"' :: line) = tokens .bare (extend word ['\'']) line := by
  rw [tokens, if_neg (by decide), if_pos rfl, tokens, if_neg (by decide), if_neg (by decide),
    extend_extend, tokens, if_pos rfl]
  rfl

/-- Plain characters are added to the word. -/
theorem tokens_plain_append {text : List Char} (hne : text ≠ []) (htext : text.all plain = true) :
    tokens .bare word (text ++ line) = tokens .bare (extend word text) line := by
  induction text generalizing word with
  | nil => exact absurd rfl hne
  | cons c text ih =>
    rw [List.all_cons, Bool.and_eq_true] at htext
    rw [List.cons_append, tokens_plain htext.1]
    cases text with
    | nil => rfl
    | cons d text =>
      rw [ih (List.cons_ne_nil d text) htext.2, extend_extend]
      rfl

/-- What stands between quotes is added to the word, whatever it is. -/
theorem tokens_quote (text : List Char) :
    tokens .bare word (quote text ++ line) = tokens .bare (extend word text) line := by
  have hbody : ∀ done, tokens .single (extend word done)
      (text.flatMap (fun c => if c = '\'' then ['\'', '"', '\'', '"', '\''] else [c]) ++
        '\'' :: line) = tokens .bare (extend word (done ++ text)) line := by
    induction text with
    | nil =>
      intro done
      rw [List.flatMap_nil, List.nil_append, List.append_nil, tokens_single_close]
    | cons c text ih =>
      intro done
      have hcons : done ++ c :: text = done ++ [c] ++ text := by simp
      rw [List.flatMap_cons, List.append_assoc, hcons, ← ih]
      split_ifs with hc
      · -- out of the single quotes, through the double ones, and in again
        subst hc
        simp only [List.cons_append, List.nil_append, tokens_single_close, tokens_double_quoted,
          tokens_single_open, extend_extend, List.append_nil]
      · rw [List.singleton_append, tokens, if_neg hc, extend_extend]
  have hquote : quote text ++ line = '\'' :: (text.flatMap (fun c =>
      if c = '\'' then ['\'', '"', '\'', '"', '\''] else [c]) ++ '\'' :: line) := by
    rw [quote, List.append_assoc]
    rfl
  rw [hquote, tokens_single_open]
  exact hbody []

theorem tokens_space :
    tokens .bare word (' ' :: line) = (tokens .bare none line).map (close word) := by
  rw [tokens, if_neg (by decide), if_neg (by decide), if_pos rfl]

theorem tokens_andIf : tokens .bare word ('&' :: '&' :: line) =
    (tokens .bare none line).map (fun rest => close word (.andIf :: rest)) := by
  rw [tokens, if_neg (by decide), if_neg (by decide), if_neg (by decide), if_pos rfl, tokens,
    if_pos rfl]

theorem tokens_piece {piece : Piece} (hpiece : piece.Written) :
    tokens .bare word (piece.render ++ line) = tokens .bare (extend word piece.text) line := by
  cases piece with
  | bare text => exact tokens_plain_append hpiece.1 hpiece.2
  | quoted text => exact tokens_quote text

theorem tokens_renderWord {pieces : List Piece} (hne : pieces ≠ [])
    (hpieces : ∀ piece ∈ pieces, piece.Written) :
    tokens .bare word (renderWord pieces ++ line) =
      tokens .bare (extend word (wordText pieces)) line := by
  induction pieces generalizing word with
  | nil => exact absurd rfl hne
  | cons piece pieces ih =>
    obtain ⟨hpiece, hrest⟩ := List.forall_mem_cons.mp hpieces
    rw [renderWord, wordText, List.flatMap_cons, List.flatMap_cons, List.append_assoc,
      tokens_piece hpiece]
    cases pieces with
    | nil => simp
    | cons next pieces =>
      have hnext := @ih (extend word piece.text) (List.cons_ne_nil next pieces) hrest
      rw [extend_extend] at hnext
      exact hnext

end Tokens

/-- The line ends the word before it and goes on with the tokens. -/
def Continues (line : List Char) (rest : List Token) : Prop :=
  ∀ text, tokens .bare (some text) line = some (.word text :: rest)

theorem continues_nil : Continues [] [] := fun _ => rfl

theorem continues_andIf {line : List Char} {rest : List Token}
    (h : tokens .bare none line = some rest) :
    Continues (' ' :: '&' :: '&' :: ' ' :: line) (.andIf :: rest) := by
  intro text
  rw [tokens_space, tokens_andIf, tokens_space, h]
  rfl

theorem tokens_word_continues {pieces : List Piece} {line : List Char} {rest : List Token}
    (hpieces : pieces ≠ [] ∧ ∀ piece ∈ pieces, piece.Written) (h : Continues line rest) :
    tokens .bare none (renderWord pieces ++ line) = some (.word (wordText pieces) :: rest) := by
  rw [tokens_renderWord hpieces.1 hpieces.2]
  exact h (wordText pieces)

theorem continues_words {words : List (List Piece)} {line : List Char} {rest : List Token}
    (hwords : ∀ word ∈ words, word ≠ [] ∧ ∀ piece ∈ word, piece.Written)
    (h : Continues line rest) :
    Continues (words.flatMap (fun word => ' ' :: renderWord word) ++ line)
      (words.map (fun word => .word (wordText word)) ++ rest) := by
  induction words with
  | nil => exact h
  | cons word words ih =>
    obtain ⟨hword, hrest⟩ := List.forall_mem_cons.mp hwords
    intro text
    rw [List.flatMap_cons, List.cons_append, List.cons_append, tokens_space, List.append_assoc,
      tokens_word_continues hword (ih hrest)]
    rfl

/-- The tokens of the commands. -/
def tokensOf : List (List (List Piece)) → List Token
  | [] => []
  | command :: commands =>
    command.map (fun word => .word (wordText word)) ++
      commands.flatMap (fun command => .andIf :: command.map (fun word => .word (wordText word)))

theorem tokens_renderCommand {command : List (List Piece)} (hcommand : Written command)
    {line : List Char} {rest : List Token} (h : Continues line rest) :
    tokens .bare none (renderCommand command ++ line) =
      some (command.map (fun word => .word (wordText word)) ++ rest) := by
  cases command with
  | nil => cases hcommand.simple
  | cons word words =>
    obtain ⟨hword, hwords⟩ := List.forall_mem_cons.mp hcommand.pieces
    rw [renderCommand, List.append_assoc, tokens_word_continues hword (continues_words hwords h)]
    rfl

theorem continues_commands {commands : List (List (List Piece))}
    (hcommands : ∀ command ∈ commands, Written command) :
    Continues (commands.flatMap (fun command => ' ' :: '&' :: '&' :: ' ' :: renderCommand command))
      (commands.flatMap (fun command =>
        .andIf :: command.map (fun word => .word (wordText word)))) := by
  induction commands with
  | nil => exact continues_nil
  | cons command commands ih =>
    obtain ⟨hcommand, hrest⟩ := List.forall_mem_cons.mp hcommands
    exact continues_andIf (tokens_renderCommand hcommand (ih hrest))

theorem joined_words (words : List (List Char)) (command : List (List Piece))
    (rest : List Token) :
    joined words (command.map (fun word => .word (wordText word)) ++ rest) =
      joined (words ++ command.map wordText) rest := by
  induction command generalizing words with
  | nil => rw [List.map_nil, List.map_nil, List.nil_append, List.append_nil]
  | cons word command ih =>
    rw [List.map_cons, List.cons_append, joined, ih, List.map_cons, List.append_assoc,
      List.singleton_append]

theorem joined_tokensOf {first : List (List Piece)} {commands : List (List (List Piece))}
    (hwritten : ∀ command ∈ first :: commands, Written command) :
    joined [] (tokensOf (first :: commands)) =
      some ((first :: commands).map (fun command => command.map wordText)) := by
  rw [tokensOf, joined_words, List.nil_append]
  induction commands generalizing first with
  | nil =>
    rw [List.flatMap_nil, joined, (hwritten first List.mem_cons_self).simple]
    rfl
  | cons next commands ih =>
    obtain ⟨hfirst, hrest⟩ := List.forall_mem_cons.mp hwritten
    have hnext := ih hrest
    rw [List.flatMap_cons, List.cons_append, joined, hfirst.simple, joined_words,
      List.nil_append, hnext]
    rfl

/-- Written commands are read back. -/
theorem commands_renderCommands {list : List (List (List Piece))} (hne : list ≠ [])
    (hwritten : ∀ command ∈ list, Written command) :
    commands (renderCommands list) = some (list.map (fun command => command.map wordText)) := by
  obtain ⟨first, rest, rfl⟩ := List.exists_cons_of_ne_nil hne
  obtain ⟨hfirst, hrest⟩ := List.forall_mem_cons.mp hwritten
  have htokens := tokens_renderCommand hfirst (continues_commands hrest)
  rw [commands, renderCommands, htokens]
  exact joined_tokensOf hwritten

end A3sBench.Library.ShellWords
