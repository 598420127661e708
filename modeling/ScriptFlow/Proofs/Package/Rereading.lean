import ScriptFlow.Package
import ScriptFlow.Proofs.Expr.Rereading

/-! Packages reread. A package may be written with fields left out, fields by position, unknown
fields, and keys of symbol tables that repeat; once it is read, it is written in one form, which
spells every field and every symbol once. From that form it is read back as it is, in tables,
functions and expressions, exactly if each of its numbers is read back when it alone is written. -/
namespace ScriptFlow

open Json

/-! ### Packages are written in escaped texts -/

theorem Atom.spelled_payload {op : Atom SymbolRef} {payload : Json}
    (written : op.payload? = some payload) : Spelled payload := by
  cases op <;> cases written <;>
    simp [Vector3.toJson, Rotator.toJson, Transform.toJson, Quaternion.toJson]

theorem Unary.spelled_payload (op : Unary SymbolRef) {operand : Json} (spelled : Spelled operand) :
    Spelled (op.payload operand) := by
  cases op <;> simp [Unary.payload, spelled]

theorem Binary.spelled_payload (op : Binary SymbolRef) {first second : Json}
    (spelledFirst : Spelled first) (spelledSecond : Spelled second) :
    Spelled (op.payload first second) := by
  cases op <;> simp [Binary.payload, spelledFirst, spelledSecond]

theorem Variadic.spelled_payload (op : Variadic SymbolRef) {operands : List Json}
    (spelled : Spelled (.array operands)) : Spelled (op.payload operands) := by
  cases op <;> simp [Variadic.payload, spelled]

theorem Led.spelled_payload (op : Led SymbolRef) {leader : Json} {operands : List Json}
    (spelledLeader : Spelled leader) (spelled : Spelled (.array operands)) :
    Spelled (op.payload leader operands) := by
  cases op <;> simp [Led.payload, spelledLeader, spelled]

theorem Expr.spelled (e : Expr SymbolRef) : Spelled e.toJson := by
  induction e with
  | atom op =>
    cases written : op.payload? with
    | none => simp [toJson, written]
    | some payload => simp [toJson, written, Atom.spelled_payload written]
  | unary op a spelled => simp [toJson, op.spelled_payload spelled]
  | binary op a b first second => simp [toJson, op.spelled_payload first second]
  | localizedText source key space first second third =>
    have inner : Spelled (.record [("source", source.toJson), ("key", key.toJson),
        ("namespace", space.toJson)]) := by
      simp [first, second, third]
    simp [toJson, inner]
  | variadic op operands each =>
    rw [toJson, toJsonAll_eq_map]
    simp [op.spelled_payload (spelled_map each)]
  | led op leader operands first each =>
    rw [toJson, toJsonAll_eq_map]
    simp [op.spelled_payload first (spelled_map each)]
  | switch endOffset index cases default first each last =>
    have inner : Spelled (.array (cases.map SwitchCase.toJson)) := by
      apply spelled_map
      intro c member
      obtain ⟨value, result⟩ := each c member
      simp [SwitchCase.toJson, value, result]
    rw [toJson, toJsonCases_eq_map]
    simp [first, inner, last]

theorem ScriptFunction.spelled (function : ScriptFunction) : Spelled function.toJson := by
  have stream : Spelled (.array (toJsonAll function.stream)) := by
    rw [toJsonAll_eq_map]
    exact spelled_map fun e _ => e.spelled
  simp [toJson, stream]

private theorem spelled_symbolMapJson (table : OrderedMap SymbolRef String) :
    Spelled (symbolMapJson table) := by
  apply Spelled.record
  rw [List.forall_mem_map]
  intro entry _
  exact .text entry.2

theorem Package.spelled (package : Package) : Spelled package.toJson := by
  have functions : Spelled (.array (package.functions.map ScriptFunction.toJson)) :=
    spelled_map fun function _ => function.spelled
  simp [toJson, SymbolTable.toJson, spelled_symbolMapJson, functions]

/-! ### Symbols -/

theorem escape_natText (n : Nat) : Quoted.escape (natText n) = Nat.toDigits 10 n := by
  have own (d : Fin 10) : Quoted.escapeChar (digitChar d) = [digitChar d] := by
    decide +revert
  rw [Quoted.escape, natText, String.toList_ofList, ← map_digitChar_natDigits, List.flatMap_map]
  simp only [own]
  exact List.map_eq_flatMap.symm

/-- A whole number as text is the number as a document, and nothing in it is escaped. -/
private theorem escape_intText (n : Int) : Quoted.escape (intText n) = (Numeral.ofInt n).chars := by
  cases n with
  | ofNat n =>
    simp [intText, escape_natText, Numeral.ofInt, Numeral.chars]
  | negSucc n =>
    have negative : Int.negSucc n < 0 := Int.negSucc_lt_zero n
    have sign : Quoted.escape ("-" ++ natText (n + 1)) = '-' :: Quoted.escape (natText (n + 1)) := by
      rw [Quoted.escape, String.toList_append, List.flatMap_append]
      rfl
    simp [intText, sign, escape_natText, Numeral.ofInt, Numeral.chars, negative]

/-- A symbol is read back from its key. -/
private theorem symbolKey?_again (reference : SymbolRef) :
    symbolKey? (Quoted.escape (intText reference.toInt)) = some reference := by
  have scanned : scanNumeral (Numeral.ofInt reference.toInt).chars =
      some (Numeral.ofInt reference.toInt, []) := by
    have upToEnd := @scanNumeral_chars [] (Numeral.ofInt reference.toInt) rfl
    rwa [List.append_nil] at upToEnd
  simp only [symbolKey?, escape_intText, scanned]
  exact int32?_ofInt reference

/-- A table that was read lists no symbol twice. -/
theorem symbolMap?_nodup {room : Nat} {json : Json} {table : OrderedMap SymbolRef String}
    (found : symbolMap? room json = some table) : table.keys.Nodup := by
  unfold symbolMap? at found
  split at found
  · obtain ⟨entries, _, rfl⟩ := Option.map_eq_some_iff.mp found
    exact OrderedMap.nodup_keys_ofList entries
  · cases found

/-- A table is read back, in its order. -/
theorem symbolMap?_again {table : OrderedMap SymbolRef String} (distinct : table.keys.Nodup)
    (room : Nat) : symbolMap? (room + 1) (symbolMapJson table) = some table := by
  have entries : (table.entries.map fun entry =>
      (Quoted.escape (intText entry.1.toInt), ofText entry.2)).mapM symbolEntry? =
        some table.entries := by
    rw [mapM_map_eq_some_iff]
    intro entry _
    simp [symbolKey?_again, symbolEntry?]
  have members : symbolMapJson table = .object (table.entries.map fun entry =>
      (Quoted.escape (intText entry.1.toInt), ofText entry.2)) := by
    rw [symbolMapJson, record_eq, List.map_map]
    rfl
  rw [members, symbolMap?, entries, Option.map_some, OrderedMap.ofList_of_nodup distinct]

/-- What is read for a field is its default or was read from something. -/
theorem optional?_cases {α : Type} {default value : α} {read : Json → Option α}
    {field : Option Json} (found : optional? default read field = some value) :
    value = default ∨ ∃ json, read json = some value := by
  cases field with
  | none => exact .inl (Option.some.inj found).symm
  | some json => exact .inr ⟨json, found⟩

/-- Neither table lists a symbol twice. -/
def SymbolTable.Distinct (table : SymbolTable) : Prop :=
  table.properties.keys.Nodup ∧ table.objects.keys.Nodup

private theorem SymbolTable.distinct_empty : SymbolTable.Distinct {} :=
  ⟨List.nodup_nil, List.nodup_nil⟩

private theorem SymbolTable.ofJson?_distinct {room : Nat} {json : Json} {table : SymbolTable}
    (found : SymbolTable.ofJson? room json = some table) : table.Distinct := by
  have each {room : Nat} {field : Option Json} {names : OrderedMap SymbolRef String}
      (read : optional? {} (symbolMap? room) field = some names) : names.keys.Nodup := by
    rcases optional?_cases read with rfl | ⟨json, read⟩
    · exact List.nodup_nil
    · exact symbolMap?_nodup read
  unfold SymbolTable.ofJson? at found
  split at found
  · simp only [Option.bind_eq_bind, Option.bind_eq_some_iff, Option.pure_def,
      Option.some.injEq] at found
    obtain ⟨properties, readProperties, objects, readObjects, rfl⟩ := found
    exact ⟨each readProperties, each readObjects⟩
  · cases found

/-- Tables are read back, and they take two brackets. -/
theorem SymbolTable.ofJson?_again {table : SymbolTable} (distinct : table.Distinct) (room : Nat) :
    SymbolTable.ofJson? (room + 2) table.toJson = some table := by
  have fields := fields?_record [("properties", symbolMapJson table.properties),
    ("objects", symbolMapJson table.objects)] (by simp) (room + 1)
  simp only [List.map_cons, List.map_nil] at fields
  simp [SymbolTable.ofJson?, SymbolTable.toJson, fields, optional?,
    symbolMap?_again distinct.1, symbolMap?_again distinct.2]

/-! ### Functions -/

/-- The numbers in a function. -/
def ScriptFunction.floats (function : ScriptFunction) : List Single := floatsAll function.stream

private theorem keeps_function (room : Nat) :
    Keeps (ScriptFunction.ofJson? room) ScriptFunction.toJson ScriptFunction.floats := by
  intro json function found
  have fields := Fields.Keeps.more "name" keeps_text.scalar
    (.one "bytecode" (keeps_all keeps_expr))
  obtain ⟨⟨name, stream⟩, rfl, again⟩ := (fields.record (by simp) room).made
    (fun p => ScriptFunction.mk p.1 p.2) (by simp [Prod.ext_iff]) found
  exact again

/-! ### Packages -/

/-- The numbers in a package. -/
def Package.floats (package : Package) : List Single :=
  package.functions.flatMap ScriptFunction.floats

private theorem keeps_package (room : Nat) :
    Keeps (Package.ofJson? (room + 3)) Package.toJson Package.floats := by
  intro json package found
  unfold Package.ofJson? at found
  split at found
  · rename_i inner symbols functions fields
    simp only [Option.bind_eq_bind, Option.bind_eq_some_iff, Option.pure_def,
      Option.some.injEq] at found
    obtain ⟨table, readTable, list, readList, rfl⟩ := found
    obtain rfl : inner = room + 2 := by
      have inside := fields?_room fields
      omega
    have distinct : table.Distinct := by
      rcases optional?_cases readTable with rfl | ⟨json, read⟩
      · exact SymbolTable.distinct_empty
      · exact SymbolTable.ofJson?_distinct read
    have functionsAgain : list? ScriptFunction.ofJson? (room + 2)
        (.array (list.map ScriptFunction.toJson)) = some list ↔
          ∀ x ∈ list.flatMap ScriptFunction.floats, x.Survives := by
      rcases optional?_cases readList with rfl | ⟨json, read⟩
      · have nothing : list? ScriptFunction.ofJson? (room + 2) (.array []) = some [] := rfl
        simp [nothing]
      · exact keeps_list keeps_function (room + 2) json list read
    -- A field that was left out is written, and so both are found again.
    have written := fields?_again fields [("symbols", table.toJson),
      ("functions", .array (list.map ScriptFunction.toJson))] rfl (by decide)
    simp only [List.map_cons, List.map_nil] at written
    rw [Package.floats, ← functionsAgain]
    simp [Package.ofJson?, Package.toJson, written, optional?, SymbolTable.ofJson?_again distinct,
      Option.bind_eq_some_iff]
  · cases found

/-- However a package is spelled in the text that it was read from, it is read back from its own text
exactly if each of its numbers is read back when it alone is written. -/
theorem Package.read?_text_iff {text : String} {package : Package}
    (found : Package.read? text = some package) :
    Package.read? package.text = some package ↔ ∀ x ∈ package.floats, x.Survives := by
  obtain ⟨json, _, decoded⟩ := Option.bind_eq_some_iff.mp found
  have written : Package.read? package.text =
      Package.ofJson? nestingLimit package.toJson := by
    rw [Package.read?, Package.text, read?_compact package.spelled, Option.bind_some]
  rw [written]
  exact keeps_package 124 json package decoded

/-- A package with a field left out, an unknown field, a function and a point by position, a tag with
`null`, and a symbol that is named twice. -/
def manySpellings : String :=
  "\x7b\"symbols\":\x7b\"properties\":" ++
    "\x7b\"-2\":\"\\u0041\\n\",\"7\":\"b\",\"-2\":\"\\u0007\"\x7d\x7d,\"more\":[]," ++
    "\"functions\":[[\"f\",[\x7b\"Tracepoint\":null\x7d," ++
    "\x7b\"VectorConst\":[1,0.10,-2.5e3]\x7d]]]\x7d"

/-- The same package in the form in which it is written. -/
def oneSpelling : String :=
  "\x7b\"symbols\":\x7b\"properties\":" ++
    "\x7b\"-2\":\"\\u0007\",\"7\":\"b\"\x7d,\"objects\":\x7b\x7d\x7d," ++
    "\"functions\":[\x7b\"name\":\"f\",\"bytecode\":[\"Tracepoint\"," ++
    "\x7b\"VectorConst\":\x7b\"x\":1.0,\"y\":0.1,\"z\":-2500.0\x7d\x7d]\x7d]\x7d"

theorem Package.read?_text_iff_manySpellings :
    ∃ package, Package.read? manySpellings = some package ∧ package.text = oneSpelling ∧
      Package.read? package.text = some package := by
  have read : (Package.read? manySpellings).map (fun package => (package.text, package.floats)) =
      some (oneSpelling, [⟨0x3f800000⟩, ⟨0x3dcccccd⟩, ⟨0xc51c4000⟩]) := by
    decide +kernel
  obtain ⟨package, found, same⟩ := Option.map_eq_some_iff.mp read
  obtain ⟨written, numbers⟩ := Prod.mk.inj same
  refine ⟨package, found, written, ?_⟩
  rw [Package.read?_text_iff found, numbers]
  decide +kernel

end ScriptFlow
