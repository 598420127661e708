import ScriptFlow.Expr.Listing
import ScriptFlow.Proofs.Expr.Footprint
import ScriptFlow.Proofs.Expr.Partition
import ScriptFlow.Proofs.Text.Lines

/-! Lines of a listing. A listing shows texts of the script and of its symbols as they are, and a
newline in one of them breaks a line. Each visit of a walk therefore takes a block of lines: the first
one starts with the offset, the indentation and the token, and for each newline in the text shown
there is one more. Nothing else breaks a line, so that a listing has one line for each expression
exactly when no text shown holds a newline. -/
namespace ScriptFlow

variable {ρ : Type}

/-! ### Newlines in the texts of a listing -/

@[simp] theorem count_newline_hexByte (byte : UInt8) : (hexByte byte).toList.count '\n' = 0 := by
  have digit : ∀ n < 16, upperHexChar n ≠ '\n' := by decide
  have high := digit (byte.toNat / 16) (by have bound := byte.toNat_lt; omega)
  have low := digit (byte.toNat % 16) (by omega)
  simp [hexByte, high, low]

@[simp] theorem count_newline_single (x : Single) : x.text.toList.count '\n' = 0 := by
  obtain ⟨whole, decimals⟩ := not_mem_positional (c := '\n') rfl (x.digits .up).normal
  rw [List.count_eq_zero, Single.text]
  split
  · decide
  · split <;> decide
  · simp only [String.toList_ofList, List.mem_append, not_or]
    refine ⟨⟨?_, whole⟩, ?_⟩
    · split <;> simp
    · split <;> simp [decimals]

theorem newlines_plain {tag : List Char} (opcode : UInt8) (clean : tag.count '\n' = 0) :
    newlines (Token.plain (String.ofList tag) opcode).name = 0 := by
  rw [Token.plain, newlines_append, newlines_ofList clean]
  exact newlines_ofList rfl

theorem Atom.newlines_name (op : Atom ρ) : newlines op.token.name = 0 := by
  cases op with
  | readVariable scope p => cases scope <;> exact newlines_plain _ rfl
  | marker m =>
    cases m with
    -- Its name is not its tag with the customary letters in front.
    | selfObject => exact newlines_ofList rfl
    | _ => exact newlines_plain _ rfl
  | _ => exact newlines_plain _ rfl

theorem Unary.newlines_name (op : Unary ρ) : newlines op.token.name = 0 := by
  cases op with
  | wrap wrapper => cases wrapper <;> exact newlines_plain _ rfl
  | classCast kind target => cases kind <;> exact newlines_plain _ rfl
  | _ => exact newlines_plain _ rfl

theorem Binary.newlines_name (op : Binary ρ) : newlines op.token.name = 0 := by
  cases op with
  | assign kind => cases kind <;> exact newlines_plain _ rfl
  | context kind skip field =>
    cases kind with
    | failSilent => exact newlines_ofList rfl
    | _ => exact newlines_plain _ rfl
  | _ => exact newlines_plain _ rfl

theorem Variadic.newlines_name (op : Variadic ρ) : newlines op.token.name = 0 := by
  cases op with
  | call kind target => cases kind <;> exact newlines_plain _ rfl
  | virtualCall kind name => cases kind <;> exact newlines_plain _ rfl
  | collection kind type => cases kind <;> exact newlines_plain _ rfl
  | _ => exact newlines_plain _ rfl

theorem Led.newlines_name (op : Led ρ) : newlines op.token.name = 0 := by
  cases op with
  | assignContainer kind => cases kind <;> exact newlines_plain _ rfl
  | callDelegate target => exact newlines_plain _ rfl

/-- No token has a newline in its name. -/
private theorem newlines_tokenName (e : Expr ρ) : newlines e.tokenName = 0 := by
  cases e with
  | atom op => exact op.newlines_name
  | unary op a => exact op.newlines_name
  | binary op a b => exact op.newlines_name
  | localizedText source key space => exact newlines_plain _ rfl
  | variadic op operands => exact op.newlines_name
  | led op leader operands => exact op.newlines_name
  | switch endOffset index cases default => exact newlines_plain _ rfl

/-! ### Texts shown -/

/-- The text of the script or of its symbols that a listing shows of an operation. -/
def Atom.shownText : Atom String → String
  | .readVariable _ p => shortName p
  | .property p => shortName p
  | .object o => o
  | .string text => String.ofList (text.toList.take shownCharacters)
  | .unicodeString text => String.ofList (text.toList.take shownCharacters)
  | .name text => text
  | .instanceDelegate text => text
  | _ => ""

@[inherit_doc Atom.shownText]
def Unary.shownText : Unary String → String
  | .letPersistent property => shortName property
  | .structMember member => shortName member
  | .classCast _ target => target
  | _ => ""

@[inherit_doc Atom.shownText]
def Binary.shownText : Binary String → String
  | .assignProperty property => shortName property
  | .bindDelegate function => function
  | .tableText table => table
  | _ => ""

@[inherit_doc Atom.shownText]
def Variadic.shownText : Variadic String → String
  | .call _ target => target
  | .virtualCall _ name => name
  | .struct type => type
  | _ => ""

/-- The text of the script or of its symbols that a listing shows of an expression, before anything
is put around it. -/
def Expr.shownText : Expr String → String
  | .atom op => op.shownText
  | .unary op _ => op.shownText
  | .binary op _ _ => op.shownText
  | .variadic op _ => op.shownText
  | .led (.callDelegate target) _ _ => target
  | _ => ""

theorem newlines_quotedExcerpt (text : String) :
    newlines (quotedExcerpt text) = newlines (String.ofList (text.toList.take shownCharacters)) := by
  unfold quotedExcerpt
  dsimp only
  split
  · simp [newlines]
  · rename_i short
    rw [List.take_of_length_le (Nat.le_of_not_lt short)]
    simp [newlines]

theorem Atom.newlines_detail (op : Atom String) : newlines op.detail = newlines op.shownText := by
  cases op with
  | string text => exact newlines_quotedExcerpt text
  | unicodeString text => exact newlines_quotedExcerpt text
  | _ => simp [Atom.detail, Atom.shownText, newlines]

theorem Unary.newlines_detail (op : Unary String) :
    newlines op.detail = newlines op.shownText := by
  cases op with
  | assert line debugOnly => cases debugOnly <;> simp [Unary.detail, Unary.shownText, newlines]
  | primitiveCast conversion => cases conversion <;> exact newlines_ofList rfl
  | text kind => cases kind <;> exact newlines_ofList rfl
  | _ => simp [Unary.detail, Unary.shownText, newlines]

theorem Binary.newlines_detail (op : Binary String) :
    newlines op.detail = newlines op.shownText := by
  cases op <;> simp [Binary.detail, Binary.shownText, newlines]

/-- Around the text that it shows, a listing puts nothing that breaks a line. -/
theorem Expr.newlines_detail (e : Expr String) : newlines e.detail = newlines e.shownText := by
  cases e with
  | atom op => exact op.newlines_detail
  | unary op a => exact op.newlines_detail
  | binary op a b => exact op.newlines_detail
  | localizedText source key space => simp [Expr.detail, Expr.shownText, newlines]
  | variadic op operands =>
    cases op <;> simp [Expr.detail, Expr.shownText, Variadic.shownText, countedCall,
      countedElements, newlines]
  | led op leader operands =>
    cases op <;> simp [Expr.detail, Expr.shownText, countedCall, countedElements, newlines]
  | switch endOffset index cases default => simp [Expr.detail, Expr.shownText, newlines]

/-! ### Blocks of lines -/

/-- What the line of a visit starts with: offset, indentation and token. -/
def Visit.front (visit : Visit ρ) : String :=
  padded 4 visit.offset ++ " " ++ String.ofList (List.replicate (2 * visit.depth) ' ') ++
    visit.expr.tokenName

/-- What stands behind the token in the line of a visit. -/
def Visit.trailer (visit : Visit String) : String :=
  if visit.expr.detail.isEmpty then "" else " " ++ visit.expr.detail

/-- The line at the end of a listing. -/
def endRow (last : Nat) : String := padded 4 last ++ " <end>"

/-- The lines of a block show a visit: the first one starts with its front, and there is one more for
each newline in the text shown. -/
structure Visit.Heads (visit : Visit ρ) (shown : String) (block : List String) : Prop where
  front : ∃ rest more, block = (visit.front ++ rest) :: more
  length : block.length = newlines shown + 1

/-- Each visit has a line of its own, which starts with the front of the visit, and the line of the
end comes last. -/
def LinePerVisit (visits : List (Visit ρ)) (last : Nat) (rows : List String) : Prop :=
  ∃ body, rows = body ++ [endRow last] ∧
    List.Forall₂ (fun visit row => ∃ rest, row = visit.front ++ rest) visits body

theorem Visit.oneLine_front (visit : Visit ρ) : OneLine visit.front := by
  have name : '\n' ∉ visit.expr.tokenName.toList :=
    (newlines_eq_zero_iff _).mp (newlines_tokenName visit.expr)
  simp [Visit.front, OneLine, padded, not_mem_toDigits, name]

private theorem Visit.newlines_trailer (visit : Visit String) :
    newlines visit.trailer = newlines visit.expr.shownText := by
  rw [← visit.expr.newlines_detail, Visit.trailer]
  split
  · rename_i empty
    rw [String.isEmpty_iff.mp empty]
  · simp [newlines]

private theorem oneLine_endRow (last : Nat) : OneLine (endRow last) := by
  simp [endRow, OneLine, padded, not_mem_toDigits]

/-! ### Lines of a listing -/

section Blocks

variable {visits : List (Visit ρ)} {shown : Visit ρ → String} {blocks : List (List String)}

/-- Blocks have as many lines as there are visits or more, and more if a newline is shown. -/
private theorem length_blocks
    (heads : List.Forall₂ (fun visit block => visit.Heads (shown visit) block) visits blocks) :
    visits.length ≤ blocks.flatten.length ∧
      (blocks.flatten.length = visits.length → ∀ visit ∈ visits, OneLine (shown visit)) := by
  induction heads with
  | nil => simp
  | cons first rest ih =>
    obtain ⟨enough, single⟩ := ih
    have own := first.length
    simp only [List.flatten_cons, List.length_append, List.length_cons, List.forall_mem_cons,
      ← newlines_eq_zero_iff] at single ⊢
    -- The other blocks have as many lines as visits or more, so this one has a single line.
    exact ⟨by omega, fun same => ⟨by omega, single (by omega)⟩⟩

/-- Blocks are single lines exactly when no text shown has a newline. -/
theorem linePerVisit_iff
    (heads : List.Forall₂ (fun visit block => visit.Heads (shown visit) block) visits blocks)
    (last : Nat) :
    LinePerVisit visits last (blocks.flatten ++ [endRow last]) ↔
      ∀ visit ∈ visits, OneLine (shown visit) := by
  constructor
  · rintro ⟨body, same, rows⟩
    obtain ⟨rfl, -⟩ := List.append_inj' same rfl
    exact (length_blocks heads).2 rows.length_eq.symm
  · intro single
    refine ⟨blocks.flatten, rfl, ?_⟩
    induction heads with
    | nil => exact .nil
    | @cons visit block _ _ first rest ih =>
      obtain ⟨one, others⟩ := List.forall_mem_cons.mp single
      obtain ⟨trailer, more, starts⟩ := first.front
      have alone : block.length = 1 := by rw [first.length, (newlines_eq_zero_iff _).mpr one]
      rw [starts, List.length_cons, Nat.succ.injEq, List.length_eq_zero_iff] at alone
      rw [starts, alone]
      exact .cons ⟨trailer, rfl⟩ (ih others)

end Blocks

/-- The row of a visit whose references are named. -/
def Symbols.row (symbols : Symbols) (visit : Visit SymbolRef) : String :=
  visit.front ++ (visit.change symbols.resolve).trailer

/-- The lines of a row show its visit. -/
theorem Symbols.heads (symbols : Symbols) (visit : Visit SymbolRef) :
    visit.Heads (symbols.resolve visit.expr).shownText (cutLines (symbols.row visit)) where
  front := cutLines_append visit.oneLine_front _
  length := by
    have clean := (newlines_eq_zero_iff _).mpr visit.oneLine_front
    have trailer := (visit.change symbols.resolve).newlines_trailer
    rw [length_cutLines, Symbols.row, newlines_append, clean, Nat.zero_add, trailer]
    rfl

/-- A listing consists of the rows of the visits and the row of the end. -/
theorem listing_resolve (symbols : Symbols) {stream : List (Expr SymbolRef)}
    (known : ∀ e ∈ stream, e.known = true) :
    listing (stream.map symbols.resolve) = .ok (String.join
      ((((walkStream stream).visits.map (·.2)).map symbols.row ++
        [endRow (startOf stream stream.length)]).map (· ++ "\n"))) := by
  have keeps := symbols.resolve_keepsEncoding
  have line (visit : Visit SymbolRef) :
      (visit.change symbols.resolve).line = symbols.row visit ++ "\n" := by
    have front : (visit.change symbols.resolve).front = visit.front := by
      simp only [Visit.front, Visit.change, keeps.token]
    rw [Symbols.row, ← front]
    rfl
  have ends : (walkStream stream).result = .ok (startOf stream stream.length) := by
    simpa [walkStream] using walkFrom_end known 0 0
  have last (offset : Nat) : endLine offset = endRow offset ++ "\n" := by
    simp [endLine, endRow, String.append_assoc]
  rw [listing, walkStream, keeps.walkFrom_change known, ← walkStream]
  simp [Walk.map, ends, Except.map, Function.comp_def, line, last]

/-- A listing has a block of lines for each visit of the walk and then the line of the end, and these
lines are the whole text. It has one line for each visit, in their order, exactly when no text shown
holds a newline. -/
theorem listing_lines (symbols : Symbols) {stream : List (Expr SymbolRef)}
    (known : ∀ e ∈ stream, e.known = true) :
    let visits := (walkStream stream).visits.map (·.2)
    let shown := fun visit : Visit SymbolRef => (symbols.resolve visit.expr).shownText
    ∃ text last, listing (stream.map symbols.resolve) = .ok text ∧ sizeAll stream = .ok last ∧
      String.join ((lines text).map (· ++ "\n")) = text ∧
      (∃ blocks, lines text = blocks.flatten ++ [endRow last] ∧
        List.Forall₂ (fun visit block => visit.Heads (shown visit) block) visits blocks) ∧
      (LinePerVisit visits last (lines text) ↔ ∀ visit ∈ visits, OneLine (shown visit)) := by
  intro visits shown
  have cut : lines (String.join
      ((visits.map symbols.row ++ [endRow (startOf stream stream.length)]).map (· ++ "\n"))) =
        (visits.map fun visit => cutLines (symbols.row visit)).flatten ++
          [endRow (startOf stream stream.length)] := by
    rw [lines_join_cut, List.flatMap_append, List.flatMap_map, List.flatMap_singleton,
      cutLines_of_oneLine (oneLine_endRow _), List.flatMap_def]
  have heads : List.Forall₂ (fun visit block => visit.Heads (shown visit) block) visits
      (visits.map fun visit => cutLines (symbols.row visit)) := by
    rw [List.forall₂_map_right_iff, List.forall₂_same]
    exact fun visit _ => symbols.heads visit
  refine ⟨_, _, listing_resolve symbols known, sizeAll_of_known known, ?_, ?_, ?_⟩
  · exact join_lines _
  · exact ⟨_, cut, heads⟩
  · rw [cut]
    exact linePerVisit_iff heads _

/-- A call and its operand have a line each under names of one line. -/
theorem listing_lines_call :
    let symbols : Symbols := ⟨fun _ => "Func.Counter", fun _ => "Math.Add"⟩
    let stream : List (Expr SymbolRef) :=
      [.variadic (.call .math 5) [.atom (.readVariable .localFrame 1)], .atom (.marker .endOfScript)]
    (∀ e ∈ stream, e.known = true) ∧
      ∃ text, listing (stream.map symbols.resolve) = .ok text ∧
        lines text = ["0000 EX_CallMath Math.Add args=1", "0009   EX_LocalVariable Counter",
          "0019 EX_EndOfScript", "0020 <end>"] ∧
        LinePerVisit ((walkStream stream).visits.map (·.2)) 20 (lines text) := by
  intro symbols stream
  have known : ∀ e ∈ stream, e.known = true := by
    simp [stream, Expr.known, knownAll, Atom.known]
  obtain ⟨text, last, listed, sized, -, -, single⟩ := listing_lines symbols known
  have spelled : listing (stream.map symbols.resolve) = .ok ("0000 EX_CallMath Math.Add args=1\n" ++
      "0009   EX_LocalVariable Counter\n0019 EX_EndOfScript\n0020 <end>\n") := by
    decide
  have size : sizeAll stream = .ok 20 := by decide
  rw [size] at sized
  cases sized
  refine ⟨known, text, listed, ?_, single.mpr (by decide)⟩
  rw [spelled] at listed
  cases listed
  decide

/-- A string with a newline takes two lines, the second of which shows no expression. -/
theorem listing_breaks_line :
    let symbols : Symbols := ({} : SymbolTable).symbols
    let stream : List (Expr SymbolRef) := [.atom (.string "a\nb")]
    (∀ e ∈ stream, e.known = true) ∧ sizeAll stream = .ok 5 ∧
      ∃ text, listing (stream.map symbols.resolve) = .ok text ∧
        lines text = ["0000 EX_StringConst \"a", "b\"", "0005 <end>"] ∧
        ¬ LinePerVisit ((walkStream stream).visits.map (·.2)) 5 (lines text) := by
  intro symbols stream
  have listed : listing (stream.map symbols.resolve) =
      .ok "0000 EX_StringConst \"a\nb\"\n0005 <end>\n" := by
    decide
  have rows : lines "0000 EX_StringConst \"a\nb\"\n0005 <end>\n" =
      ["0000 EX_StringConst \"a", "b\"", "0005 <end>"] := by
    decide
  refine ⟨by simp [stream, Expr.known, Atom.known], by decide, _, listed, rows, ?_⟩
  rw [rows]
  rintro ⟨body, same, each⟩
  have three := congrArg List.length same
  have one : 1 = body.length := each.length_eq
  rw [List.length_append, ← one] at three
  cases three

end ScriptFlow
