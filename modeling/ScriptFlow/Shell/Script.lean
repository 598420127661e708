import ScriptFlow.Shell.Token

/-!
Reading the commands of shell scripts. A script is read line by line, and the lines before one that
cannot be read are run all the same.
-/

namespace ScriptFlow.Shell

/-- The words with a meaning of their own that end a list of commands. -/
def endingWords : List String :=
  ["then", "else", "elif", "fi", "do", "done", "esac", "\x7d"]

/-- The word without quotes that the tokens start with. -/
def firstWord? : List Token → Option String
  | .word word :: _ => (Word.plain? word).map String.ofList
  | _ => none

/-- The tokens after the given word or symbol, if they start with it. -/
def expect? (text : String) (tokens : List Token) : Option (List Token) :=
  match tokens with
  | .symbol found :: rest => if found = text then some rest else none
  | _ => if firstWord? tokens = some text then some tokens.tail else none

/-- The tokens without the ends of lines in front. -/
def skipLines : List Token → List Token
  | .symbol "\n" :: rest => skipLines rest
  | tokens => tokens

/-- Whether the tokens end a list of commands. -/
def endsList (tokens : List Token) : Bool :=
  match tokens with
  | [] => true
  | .symbol text :: _ => text = ")" || text = ";;"
  | _ => (firstWord? tokens).any endingWords.contains

/-- The name that a word assigns to, and the word for its value. -/
def assignment? : Word → Option (List Char × Word)
  | .text chars false :: rest =>
    match chars.dropWhile (· ≠ '=') with
    | _ :: value =>
      let name := chars.takeWhile (· ≠ '=')
      if isName name then
        some (name, if value.isEmpty then rest else .text value false :: rest)
      else none
    | [] => none
  | _ => none

/-- The redirections that the tokens start with, and the tokens after them. -/
def redirects : List Token → List Redirect × List Token
  | .redirect stream kind :: .word word :: rest =>
    let (more, rest) := redirects rest
    (⟨stream, kind, word⟩ :: more, rest)
  | tokens => ([], tokens)

/-- The assignments, words and redirections of a simple command, and the tokens after it. -/
def simpleParts (started : Bool) :
    List Token → (List (List Char × Word) × List Word × List Redirect) × List Token
  | .redirect stream kind :: .word word :: rest =>
    let ((assigned, words, others), rest) := simpleParts started rest
    ((assigned, words, ⟨stream, kind, word⟩ :: others), rest)
  | .word word :: rest =>
    match started, assignment? word with
    | false, some assignment =>
      let ((assigned, words, others), rest) := simpleParts false rest
      ((assignment :: assigned, words, others), rest)
    | _, _ =>
      let ((assigned, words, others), rest) := simpleParts true rest
      ((assigned, word :: words, others), rest)
  | tokens => (([], [], []), tokens)

/-- A simple command, and the tokens after it. -/
def simple? (tokens : List Token) : Option (Command × List Token) :=
  match simpleParts false tokens with
  | (([], [], []), _) => none
  | (_, .broken :: _) => none
  | ((assigned, words, others), rest) => some (.simple assigned words others, rest)

/-- The words that the tokens start with, and the tokens after them. -/
def leadingWords : List Token → List Word × List Token
  | .word word :: rest =>
    let (words, rest) := leadingWords rest
    (word :: words, rest)
  | tokens => ([], tokens)

/-- The patterns of an arm, and the tokens after the parenthesis that ends them. -/
def patterns? : List Token → Option (List Word × List Token)
  | .word word :: .symbol ")" :: rest => some ([word], rest)
  | .word word :: .symbol "|" :: rest => do
    let (words, rest) ← patterns? rest
    return (word :: words, rest)
  | _ => none

/-- What is being read. -/
inductive Goal where
  /-- The commands of one line. -/
  | line
  /-- Commands up to a word or a symbol that ends them. -/
  | list
  /-- As before, and there is at least one. -/
  | body
  /-- Commands that are joined by their success. -/
  | chain
  /-- Commands that are joined by pipes. -/
  | pipeline
  /-- One command. -/
  | command
  /-- A condition with what depends on it, after the word that starts it. -/
  | branches
  /-- The arms of a choice. -/
  | arms (word : Word)

/-- A command with the redirections that follow it, and the tokens after them. -/
def withRedirects (command : Command) (tokens : List Token) : Command × List Token :=
  match redirects tokens with
  | ([], rest) => (command, rest)
  | (found, rest) => (.redirected command found, rest)

/-- Reads a goal from tokens, in at most as many levels as the first argument says, and returns the
tokens after it. -/
def read? : Nat → Goal → List Token → Option (Command × List Token)
  | 0, _, _ => none
  | n + 1, .line, tokens => do
    let (command, rest) ← read? n .chain tokens
    match rest with
    | .symbol ";" :: rest =>
      if rest.isEmpty ∨ (expect? "\n" rest).isSome then return (command, rest)
      else
        let (more, rest) ← read? n .line rest
        return (.sequence command more, rest)
    | .symbol "&" :: rest =>
      if rest.isEmpty ∨ (expect? "\n" rest).isSome then return (.background command, rest)
      else
        let (more, rest) ← read? n .line rest
        return (.sequence (.background command) more, rest)
    | rest => return (command, rest)
  | n + 1, .list, tokens => do
    let tokens := skipLines tokens
    if endsList tokens then return (.skip, tokens)
    else
      let (command, rest) ← read? n .chain tokens
      match rest with
      | .symbol ";" :: rest | .symbol "\n" :: rest =>
        let (more, rest) ← read? n .list rest
        return (.sequence command more, rest)
      | .symbol "&" :: rest =>
        let (more, rest) ← read? n .list rest
        return (.sequence (.background command) more, rest)
      | rest => return (command, rest)
  | n + 1, .body, tokens =>
    if endsList (skipLines tokens) then none else read? n .list tokens
  | n + 1, .chain, tokens => do
    let (first, rest) ← read? n .pipeline tokens
    chainFrom n first rest
  | n + 1, .pipeline, tokens =>
    match expect? "!" tokens with
    | some rest => (read? n .pipeline rest).map fun (command, rest) => (.negated command, rest)
    | none => do
      let (first, rest) ← read? n .command tokens
      match expect? "|" rest with
      | some rest =>
        let (second, rest) ← read? n .pipeline (skipLines rest)
        return (.pipe first second, rest)
      | none => return (first, rest)
  | n + 1, .command, tokens =>
    match tokens with
    | .symbol "(" :: rest => do
      let (body, rest) ← read? n .body rest
      let rest ← expect? ")" rest
      return withRedirects (.subshell body) rest
    | .word name :: .symbol "(" :: .symbol ")" :: rest => do
      let name ← Word.plain? name
      let (body, rest) ← read? n .command (skipLines rest)
      return (.define name body, rest)
    | _ =>
      match firstWord? tokens with
      | some "if" => do
        let (command, rest) ← read? n .branches tokens.tail
        let rest ← expect? "fi" rest
        return withRedirects command rest
      | some "while" => do
        let (condition, rest) ← read? n .body tokens.tail
        let rest ← expect? "do" rest
        let (body, rest) ← read? n .body rest
        let rest ← expect? "done" rest
        return withRedirects (.loop false condition body) rest
      | some "until" => do
        let (condition, rest) ← read? n .body tokens.tail
        let rest ← expect? "do" rest
        let (body, rest) ← read? n .body rest
        let rest ← expect? "done" rest
        return withRedirects (.loop true condition body) rest
      | some "for" =>
        match tokens.tail with
        | .word name :: rest => do
          let name ← Word.plain? name
          let (words, rest) := match expect? "in" (skipLines rest) with
            | some rest =>
              let (words, rest) := leadingWords rest
              (some words, rest)
            | none => (none, rest)
          let rest ← expect? "do" (skipLines ((expect? ";" rest).getD rest))
          let (body, rest) ← read? n .body rest
          let rest ← expect? "done" rest
          return withRedirects (.forEach name words body) rest
        | _ => none
      | some "case" =>
        match tokens.tail with
        | .word word :: rest => do
          let rest ← expect? "in" (skipLines rest)
          let (command, rest) ← read? n (.arms word) rest
          return withRedirects command rest
        | _ => none
      | some "\x7b" => do
        let (body, rest) ← read? n .body tokens.tail
        let rest ← expect? "\x7d" rest
        return withRedirects body rest
      | some first => if first ∈ endingWords then none else simple? tokens
      | none => simple? tokens
  | n + 1, .branches, tokens => do
    let (condition, rest) ← read? n .body tokens
    let rest ← expect? "then" rest
    let (yes, rest) ← read? n .body rest
    match expect? "elif" rest, expect? "else" rest with
    | some rest, _ =>
      let (no, rest) ← read? n .branches rest
      return (.branch condition yes no, rest)
    | none, some rest =>
      let (no, rest) ← read? n .body rest
      return (.branch condition yes no, rest)
    | none, none => return (.branch condition yes .skip, rest)
  | n + 1, .arms word, tokens =>
    let tokens := skipLines tokens
    match expect? "esac" tokens with
    | some rest => some (.skip, rest)
    | none => do
      let (patterns, rest) ← patterns? ((expect? "(" tokens).getD tokens)
      let (body, rest) ← read? n .list rest
      match expect? ";;" rest with
      | some rest =>
        let (others, rest) ← read? n (.arms word) rest
        return (.arm word patterns body others, rest)
      | none =>
        let rest ← expect? "esac" rest
        return (.arm word patterns body .skip, rest)
where
  /-- A command with those joined to it, which are taken from left to right. -/
  chainFrom (n : Nat) (first : Command) (tokens : List Token) : Option (Command × List Token) :=
    match n with
    | 0 => none
    | n + 1 =>
      match expect? "&&" tokens, expect? "||" tokens with
      | some rest, _ => do
        let (second, rest) ← read? n .pipeline (skipLines rest)
        chainFrom n (.both first second) rest
      | none, some rest => do
        let (second, rest) ← read? n .pipeline (skipLines rest)
        chainFrom n (.either first second) rest
      | none, none => some (first, tokens)

/-- The commands of the lines of a script, and whether a line cannot be read; at most as many lines
as the first argument says. -/
def linesFrom (levels : Nat) : Nat → List Token → List Command × Bool
  | 0, _ => ([], false)
  | lines + 1, tokens =>
    match skipLines tokens with
    | [] => ([], false)
    | tokens =>
      match read? levels .line tokens with
      | some (command, []) => ([command], false)
      | some (command, .symbol "\n" :: rest) =>
        let (more, broken) := linesFrom levels lines rest
        (command :: more, broken)
      | _ => ([], true)

/-- The commands of the lines of a script up to one that cannot be read, and whether there is such a
line. -/
def commandsOf (script : List Char) : List Command × Bool :=
  let tokens := tokensOf script
  linesFrom (tokens.length * 8 + 8) (tokens.length + 1) tokens

end ScriptFlow.Shell
