import ScriptFlow.Shell.Word

/-!
The tokens of shell scripts: words, symbols and redirections. A document inside a script starts on
the line after the one that asks for it, and ends with a line that holds its delimiter.
-/

namespace ScriptFlow.Shell

/-- A token of a script. -/
inductive Token where
  /-- A word. -/
  | word (word : Word)
  /-- A symbol, or the end of a line. -/
  | symbol (text : String)
  /-- A redirection of a stream, whose word follows. -/
  | redirect (stream : Nat) (kind : RedirectKind)
  /-- A request for a document as the source of a stream. -/
  | wanted (stream : Nat)
  /-- A document, after the line that asked for it. -/
  | document (word : Word)
  /-- Something that cannot be read; nothing follows. -/
  | broken

/-- A document that is asked for: its delimiter, whether it stands for itself, and whether tabs at
the start of a line are left out. -/
structure Wanted where
  /-- The line that ends it. -/
  delimiter : List Char
  /-- Whether nothing in it is replaced. -/
  literal : Bool
  /-- Whether tabs at the start of a line are left out. -/
  withoutTabs : Bool

/-- The lines of a document up to its delimiter, and what follows; at most as many lines as the
first argument says. -/
def documentText (wanted : Wanted) : Nat → List Char → List Char × List Char
  | 0, rest => ([], rest)
  | _, [] => ([], [])
  | lines + 1, chars =>
    let line := chars.takeWhile (· ≠ '\n')
    let after := (chars.drop line.length).drop 1
    let line := if wanted.withoutTabs then line.dropWhile (· = '\t') else line
    if line = wanted.delimiter then ([], after)
    else
      let (text, rest) := documentText wanted lines after
      (line ++ '\n' :: text, rest)

/-- The characters of a word, as they are written without their quotes. -/
def Word.chars (word : Word) : List Char :=
  word.flatMap fun part =>
    match part with
    | .text chars _ => chars
    | .parameter name _ _ => '$' :: name
    | _ => []

/-- Whether a part of a word is quoted. -/
def Word.hasQuotes (word : Word) : Bool :=
  word.any fun part =>
    match part with
    | .text _ quoted => quoted
    | _ => false

/-- The documents that are asked for, and what follows them. -/
def documents : List Wanted → List Char → List Token × List Char
  | [], rest => ([], rest)
  | wanted :: more, rest =>
    let (text, rest) := documentText wanted (rest.length + 1) rest
    let token :=
      if wanted.literal then Token.document [.text text true]
      else
        match wordOf? .document text with
        | some word => .document word
        | none => .broken
    let (tokens, rest) := documents more rest
    (token :: tokens, rest)

/-- The symbol that the characters start with, and what follows it. -/
def symbol? : List Char → Option (String × List Char)
  | '&' :: '&' :: rest => some ("&&", rest)
  | '|' :: '|' :: rest => some ("||", rest)
  | ';' :: ';' :: rest => some (";;", rest)
  | '&' :: rest => some ("&", rest)
  | '|' :: rest => some ("|", rest)
  | ';' :: rest => some (";", rest)
  | '(' :: rest => some ("(", rest)
  | ')' :: rest => some (")", rest)
  | _ => none

/-- The redirection that the characters start with, and what follows it. -/
def redirect? (stream : Option Nat) : List Char → Option (Token × List Char)
  | '>' :: '>' :: rest => some (.redirect (stream.getD 1) .append, rest)
  | '>' :: '&' :: rest => some (.redirect (stream.getD 1) .same, rest)
  | '>' :: '|' :: rest => some (.redirect (stream.getD 1) .target, rest)
  | '>' :: rest => some (.redirect (stream.getD 1) .target, rest)
  | '<' :: '<' :: _ => none
  | '<' :: '&' :: rest => some (.redirect (stream.getD 0) .same, rest)
  | '<' :: rest => some (.redirect (stream.getD 0) .source, rest)
  | _ => none

/-- The request for a document that the characters start with, and what follows it. -/
def wanted? (chars : List Char) : Option (Wanted × List Char) :=
  match chars with
  | '<' :: '<' :: rest => do
    let withoutTabs := rest.head? = some '-'
    let rest := (if withoutTabs then rest.drop 1 else rest).dropWhile fun c => c = ' ' ∨ c = '\t'
    let (word, rest) ← word? (rest.length + 1) .bare rest
    if word.isEmpty then none
    else return (⟨Word.chars word, Word.hasQuotes word, withoutTabs⟩, rest)
  | _ => none

/-- The number that a word is, if a redirection follows. -/
def streamNumber? (word : Word) (rest : List Char) : Option Nat :=
  match Word.plain? word, rest.head? with
  | some [digit], some next =>
    if digit.isDigit ∧ (next = '<' ∨ next = '>') then some (digit.toNat - '0'.toNat) else none
  | _, _ => none

/-- The tokens of a script, given the documents that the line so far asks for; at most as many as
the first argument says. -/
def tokensFrom (asked : List Wanted) : Nat → List Char → List Token
  | 0, _ => []
  | _ + 1, [] => (documents asked []).1
  | steps + 1, c :: rest =>
    if c = ' ' ∨ c = '\t' then tokensFrom asked steps rest
    else if c = '\\' ∧ rest.head? = some '\n' then tokensFrom asked steps rest.tail
    else if c = '#' then tokensFrom asked steps (rest.dropWhile (· ≠ '\n'))
    else if c = '\n' then
      let (found, rest) := documents asked rest
      found ++ .symbol "\n" :: tokensFrom [] steps rest
    else
      match symbol? (c :: rest), redirect? none (c :: rest), wanted? (c :: rest) with
      | some (text, rest), _, _ => .symbol text :: tokensFrom asked steps rest
      | none, some (token, rest), _ => token :: tokensFrom asked steps rest
      | none, none, some (wanted, rest) => .wanted 0 :: tokensFrom (asked ++ [wanted]) steps rest
      | none, none, none =>
        match word? (rest.length + 2) .bare (c :: rest) with
        | none => [.broken]
        | some (word, rest) =>
          match streamNumber? word rest with
          | none => .word word :: tokensFrom asked steps rest
          | some stream =>
            match redirect? (some stream) rest, wanted? rest with
            | some (token, rest), _ => token :: tokensFrom asked steps rest
            | none, some (wanted, rest) =>
              .wanted stream :: tokensFrom (asked ++ [wanted]) steps rest
            | none, none => [.broken]

/-- The tokens with every document put where it is asked for. -/
def placeDocuments : List Token → List Token → List Token
  | found, .wanted stream :: rest =>
    match found with
    | .document word :: found =>
      .redirect stream .document :: .word word :: placeDocuments found rest
    | _ => [.broken]
  | found, .document _ :: rest => placeDocuments found rest
  | found, token :: rest => token :: placeDocuments found rest
  | _, [] => []

/-- The tokens of a script. -/
def tokensOf (script : List Char) : List Token :=
  let tokens := tokensFrom [] (script.length + 1) script
  placeDocuments
    (tokens.filter fun token =>
      match token with
      | .document _ => true
      | _ => false) tokens

end ScriptFlow.Shell
