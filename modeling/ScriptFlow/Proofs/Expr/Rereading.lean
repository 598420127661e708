import ScriptFlow.Expr.Reader
import ScriptFlow.Expr.Writer
import ScriptFlow.Proofs.Expr.Structure
import ScriptFlow.Proofs.Json.Rereading

/-! Expressions reread. An operation is written under its tag with a payload, and every reader of
payloads answers for tags of its own; so what a reader answered for a payload in whatever form, it
answers for the written payload too, provided that the operands are read back. Operands are read one
level further inside, which makes the induction one on the number of levels that are looked at: each
form of an expression puts its operands inside at least the brackets that its written form has. -/
namespace ScriptFlow

open Json

/-! ### The numbers of an expression -/

def Vector3.floats (v : Vector3) : List Single := [v.x, v.y, v.z]
def Rotator.floats (r : Rotator) : List Single := [r.pitch, r.yaw, r.roll]
def Quaternion.floats (q : Quaternion) : List Single := [q.x, q.y, q.z, q.w]
def Transform.floats (t : Transform) : List Single :=
  t.rotation.floats ++ (t.displacement.floats ++ t.scale.floats)

/-- The numbers that an operation carries. -/
def Atom.floats {ρ : Type} : Atom ρ → List Single
  | .float x => [x]
  | .vector v => v.floats
  | .rotation r => r.floats
  | .transform t => t.floats
  | _ => []

mutual

/-- The numbers in an expression, at any depth. -/
def Expr.floats {ρ : Type} : Expr ρ → List Single
  | .atom op => op.floats
  | .unary _ a => a.floats
  | .binary _ a b => a.floats ++ b.floats
  | .localizedText source key space => source.floats ++ (key.floats ++ space.floats)
  | .variadic _ operands => floatsAll operands
  | .led _ leader operands => leader.floats ++ floatsAll operands
  | .switch _ index cases default => index.floats ++ (floatsCases cases ++ default.floats)

/-- The numbers in expressions. -/
def floatsAll {ρ : Type} : List (Expr ρ) → List Single
  | [] => []
  | e :: rest => e.floats ++ floatsAll rest

/-- The numbers in the cases of a switch. -/
def floatsCases {ρ : Type} : List (SwitchCase (Expr ρ)) → List Single
  | [] => []
  | ⟨value, _, result⟩ :: rest => (value.floats ++ result.floats) ++ floatsCases rest

end

/-- One case of a switch as a document. -/
def SwitchCase.toJson (c : SwitchCase (Expr SymbolRef)) : Json :=
  .record [("value", c.value.toJson), ("next_offset", .ofNat c.nextOffset.toNat),
    ("result", c.result.toJson)]

/-- The numbers in one case of a switch. -/
def SwitchCase.floats {ρ : Type} (c : SwitchCase (Expr ρ)) : List Single :=
  c.value.floats ++ c.result.floats

theorem toJsonAll_eq_map (es : List (Expr SymbolRef)) : toJsonAll es = es.map Expr.toJson := by
  induction es with
  | nil => rfl
  | cons e rest ih => rw [toJsonAll, ih, List.map_cons]

theorem toJsonCases_eq_map (cases : List (SwitchCase (Expr SymbolRef))) :
    toJsonCases cases = cases.map SwitchCase.toJson := by
  induction cases with
  | nil => rfl
  | cons c rest ih =>
    rw [toJsonCases, ih, List.map_cons]
    rfl

private theorem floatsAll_eq_flatMap {ρ : Type} (es : List (Expr ρ)) :
    floatsAll es = es.flatMap Expr.floats := by
  induction es with
  | nil => rfl
  | cons e rest ih => rw [floatsAll, ih, List.flatMap_cons]

private theorem floatsCases_eq_flatMap {ρ : Type} (cases : List (SwitchCase (Expr ρ))) :
    floatsCases cases = cases.flatMap SwitchCase.floats := by
  induction cases with
  | nil => rfl
  | cons c rest ih =>
    rw [floatsCases, ih, List.flatMap_cons]
    rfl

/-! ### Points and rotations -/

theorem keeps_vector (room : Nat) : Keeps (Vector3.ofJson? room) Vector3.toJson Vector3.floats := by
  intro json v found
  have number := keeps_single.scalar
  have fields := Fields.Keeps.more "x" number (.more "y" number (.one "z" number))
  obtain ⟨⟨x, y, z⟩, rfl, again⟩ := (fields.record (by simp) room).made
    (fun p => Vector3.mk p.1 p.2.1 p.2.2) (by simp [Prod.ext_iff]) found
  exact again

private theorem keeps_rotator (room : Nat) :
    Keeps (Rotator.ofJson? room) Rotator.toJson Rotator.floats := by
  intro json r found
  have number := keeps_single.scalar
  have fields :=
    Fields.Keeps.more "pitch" number (.more "yaw" number (.one "roll" number))
  obtain ⟨⟨pitch, yaw, roll⟩, rfl, again⟩ := (fields.record (by simp) room).made
    (fun p => Rotator.mk p.1 p.2.1 p.2.2) (by simp [Prod.ext_iff]) found
  exact again

private theorem keeps_quaternion (room : Nat) :
    Keeps (Quaternion.ofJson? room) Quaternion.toJson Quaternion.floats := by
  intro json q found
  have number := keeps_single.scalar
  have fields := Fields.Keeps.more "x" number
    (.more "y" number (.more "z" number (.one "w" number)))
  obtain ⟨⟨x, y, z, w⟩, rfl, again⟩ := (fields.record (by simp) room).made
    (fun p => Quaternion.mk p.1 p.2.1 p.2.2.1 p.2.2.2) (by simp [Prod.ext_iff]) found
  exact again

private theorem keeps_transform (room : Nat) :
    Keeps (Transform.ofJson? room) Transform.toJson Transform.floats := by
  intro json t found
  have fields := Fields.Keeps.more "rotation" keeps_quaternion
    (.more "translation" keeps_vector (.one "scale" keeps_vector))
  obtain ⟨⟨rotation, displacement, scale⟩, rfl, again⟩ := (fields.record (by simp) room).made
    (fun p => Transform.mk p.1 p.2.1 p.2.2) (by simp [Prod.ext_iff]) found
  exact again

/-! ### Operations without operands -/

theorem tag_of_ofTag? {α : Type} {all : List α} {token : α → Token} {tag : String} {value : α}
    (named : ofTag? all (fun a => (token a).tag) tag = some value) : (token value).tag = tag := by
  simpa using List.find?_some named

/-- An operation is written under a tag with a payload that it is read from again exactly if its
numbers survive. -/
def Atom.Again (tag : String) (read : Json → Option (Atom SymbolRef)) (op : Atom SymbolRef) : Prop :=
  op.token.tag = tag ∧ ∃ written, op.payload? = some written ∧
    (read written = some op ↔ ∀ x ∈ op.floats, x.Survives)

theorem Json.Keeps.atom {α : Type} {read : Json → Option α} {write : α → Json} {floats : α → List Single}
    (keeps : Keeps read write floats) (make : α → Atom SymbolRef)
    (injective : ∀ a a', make a = make a' ↔ a = a') {tag : String}
    (shape : ∀ a, (make a).token.tag = tag ∧ (make a).payload? = some (write a) ∧
      (make a).floats = floats a) {json : Json} {op : Atom SymbolRef}
    (found : (read json).map make = some op) : op.Again tag fun json => (read json).map make := by
  obtain ⟨a, rfl, again⟩ := keeps.made make injective found
  obtain ⟨tagged, payload, floats⟩ := shape a
  refine ⟨tagged, write a, payload, ?_⟩
  rw [floats]
  exact again

private theorem atomOfJson?_again {tag : String} {room : Nat} {payload : Json} {op : Atom SymbolRef}
    (found : Expr.atomOfJson? tag room payload = some op) :
    op.Again tag (Expr.atomOfJson? tag room) := by
  unfold Expr.atomOfJson? at found
  unfold Atom.Again Expr.atomOfJson?
  split at found
  case h_1 => exact keeps_int32.atom .property (by simp) (fun _ => ⟨rfl, rfl, rfl⟩) found
  case h_2 => exact keeps_int32.atom .object (by simp) (fun _ => ⟨rfl, rfl, rfl⟩) found
  case h_3 =>
    exact ((Fields.Keeps.one "target" keeps_uint32.scalar).record (by simp) room).atom .jump (by simp)
      (fun _ => ⟨rfl, rfl, rfl⟩) found
  case h_4 =>
    exact ((Fields.Keeps.one "address" keeps_uint32.scalar).record (by simp) room).atom .pushFlow (by simp)
      (fun _ => ⟨rfl, rfl, rfl⟩) found
  case h_5 => exact keeps_uint32.atom .skipOffset (by simp) (fun _ => ⟨rfl, rfl, rfl⟩) found
  case h_6 => exact keeps_int32.atom .int (by simp) (fun _ => ⟨rfl, rfl, rfl⟩) found
  case h_7 => exact keeps_uint8.atom .intByte (by simp) (fun _ => ⟨rfl, rfl, rfl⟩) found
  case h_8 => exact keeps_int64.atom .int64 (by simp) (fun _ => ⟨rfl, rfl, rfl⟩) found
  case h_9 => exact keeps_uint64.atom .uint64 (by simp) (fun _ => ⟨rfl, rfl, rfl⟩) found
  case h_10 => exact keeps_single.atom .float (by simp) (fun _ => ⟨rfl, rfl, rfl⟩) found
  case h_11 => exact keeps_uint8.atom .byte (by simp) (fun _ => ⟨rfl, rfl, rfl⟩) found
  case h_12 => exact keeps_text.atom .string (by simp) (fun _ => ⟨rfl, rfl, rfl⟩) found
  case h_13 => exact keeps_text.atom .unicodeString (by simp) (fun _ => ⟨rfl, rfl, rfl⟩) found
  case h_14 => exact keeps_text.atom .name (by simp) (fun _ => ⟨rfl, rfl, rfl⟩) found
  case h_15 => exact keeps_text.atom .instanceDelegate (by simp) (fun _ => ⟨rfl, rfl, rfl⟩) found
  case h_16 => exact (keeps_vector room).atom .vector (by simp) (fun _ => ⟨rfl, rfl, rfl⟩) found
  case h_17 => exact (keeps_rotator room).atom .rotation (by simp) (fun _ => ⟨rfl, rfl, rfl⟩) found
  case h_18 => exact (keeps_transform room).atom .transform (by simp) (fun _ => ⟨rfl, rfl, rfl⟩) found
  case h_19 =>
    exact ((Fields.Keeps.one "opcode" keeps_uint8.scalar).record (by simp) room).atom .unknown (by simp)
      (fun _ => ⟨rfl, rfl, rfl⟩) found
  case h_20 =>
    obtain ⟨scope, named, found⟩ := Option.bind_eq_some_iff.mp found
    obtain ⟨p, rfl, again⟩ := keeps_int32.bound (Atom.readVariable scope) (by simp) found
    have tagged : scope.token.tag = tag := tag_of_ofTag? named
    refine ⟨tagged, _, rfl, ?_⟩
    simp only [named]
    exact again

section Step

variable {expr : Decoder (Expr SymbolRef)}
  (keeps : ∀ room, Keeps (expr room) Expr.toJson Expr.floats) {room : Nat} {json : Json}

include keeps

theorem keeps_scalarAndExpr {α : Type} {scalar : Json → Option α} {write : α → Json}
    (keepsScalar : Keeps scalar write fun _ => []) {scalarName exprName : String}
    (distinct : [scalarName, exprName].Nodup) (room : Nat) :
    Keeps (Expr.scalarAndExpr? expr scalar scalarName exprName room)
      (fun p => .record [(scalarName, write p.1), (exprName, p.2.toJson)]) fun p => p.2.floats :=
  (Fields.Keeps.more scalarName keepsScalar.scalar (.one exprName keeps)).record distinct room

theorem keeps_exprPair {first second : String} (distinct : [first, second].Nodup) (room : Nat) :
    Keeps (Expr.exprPair? expr first second room)
      (fun p => .record [(first, p.1.toJson), (second, p.2.toJson)])
      fun p => p.1.floats ++ p.2.floats :=
  (Fields.Keeps.more first keeps (.one second keeps)).record distinct room

theorem keeps_scalarAndPair {α : Type} {scalar : Json → Option α} {write : α → Json}
    (keepsScalar : Keeps scalar write fun _ => []) {scalarName first second : String}
    (distinct : [scalarName, first, second].Nodup) (room : Nat) :
    Keeps (Expr.scalarAndPair? expr scalar scalarName first second room)
      (fun p => .record [(scalarName, write p.1), (first, p.2.1.toJson), (second, p.2.2.toJson)])
      fun p => p.2.1.floats ++ p.2.2.floats :=
  (Fields.Keeps.more scalarName keepsScalar.scalar
    (.more first keeps (.one second keeps))).record distinct room

theorem keeps_all (room : Nat) :
    Keeps (list? expr room) (fun es => .array (toJsonAll es)) floatsAll := by
  intro json es found
  simp only [toJsonAll_eq_map, floatsAll_eq_flatMap]
  exact keeps_list keeps room json es found

theorem keeps_scalarAndList {α : Type} {scalar : Json → Option α} {write : α → Json}
    (keepsScalar : Keeps scalar write fun _ => []) {scalarName listName : String}
    (distinct : [scalarName, listName].Nodup) (room : Nat) :
    Keeps (Expr.scalarAndList? expr scalar scalarName listName room)
      (fun p => .record [(scalarName, write p.1), (listName, .array (toJsonAll p.2))])
      fun p => floatsAll p.2 :=
  (Fields.Keeps.more scalarName keepsScalar.scalar
    (.one listName (keeps_all keeps))).record distinct room

private theorem keeps_case (room : Nat) :
    Keeps (Expr.caseOfJson? expr room) SwitchCase.toJson SwitchCase.floats := by
  intro json c found
  have fields := Fields.Keeps.more "value" keeps
    (.more "next_offset" keeps_uint32.scalar (.one "result" keeps))
  obtain ⟨⟨value, nextOffset, result⟩, rfl, again⟩ := (fields.record (by simp) room).made
    (fun p => SwitchCase.mk p.1 p.2.1 p.2.2) (by simp [Prod.ext_iff]) found
  exact again

private theorem keeps_cases (room : Nat) :
    Keeps (list? (Expr.caseOfJson? expr) room) (fun cases => .array (toJsonCases cases))
      floatsCases := by
  intro json cases found
  simp only [toJsonCases_eq_map, floatsCases_eq_flatMap]
  exact keeps_list (keeps_case keeps) room json cases found

omit keeps in
private theorem keeps_conversion (room : Nat) :
    Keeps (Json.tag? Conversion.all Conversion.tag room) (fun c => .ofText c.tag) fun _ => [] := by
  apply keeps_of_reads
  intro conversion
  cases conversion <;> simp [Json.tag?, unitVariant?] <;> rfl

/-! ### Operations with operands -/

omit keeps in
/-- An expression is written under a tag with a payload that it is read from again exactly if its
numbers survive. -/
def Expr.Again (tag : String) (read : Json → Option (Expr SymbolRef)) (e : Expr SymbolRef) : Prop :=
  e.token.tag = tag ∧ ∃ written, e.toJson = .record [(tag, written)] ∧
    (read written = some e ↔ ∀ x ∈ e.floats, x.Survives)

private theorem unaryOfJson?_again {tag : String} {payload : Json} {e : Expr SymbolRef}
    (found : Expr.unaryOfJson? expr tag room payload = some e) :
    (∃ op a, e = .unary op a) ∧ e.Again tag (Expr.unaryOfJson? expr tag room) := by
  unfold Expr.unaryOfJson? at found
  unfold Expr.Again Expr.unaryOfJson?
  split at found
  case h_1 =>
    obtain ⟨⟨target, condition⟩, rfl, again⟩ :=
      Keeps.bound (keeps_scalarAndExpr keeps keeps_uint32 (by decide) room)
        (fun p => Expr.unary (.jumpIfNot p.1) p.2) (by simp [Prod.ext_iff]) found
    exact ⟨⟨_, _, rfl⟩, rfl, _, rfl, again⟩
  case h_2 =>
    obtain ⟨⟨count, operand⟩, rfl, again⟩ :=
      Keeps.bound (keeps_scalarAndExpr keeps keeps_uint32 (by decide) room)
        (fun p => Expr.unary (.skip p.1) p.2) (by simp [Prod.ext_iff]) found
    exact ⟨⟨_, _, rfl⟩, rfl, _, rfl, again⟩
  case h_3 =>
    have fields := Fields.Keeps.more "line" keeps_uint16.scalar
      (.more "debug_only" keeps_bool.scalar (.one "expr" keeps))
    obtain ⟨⟨line, debugOnly, operand⟩, rfl, again⟩ := (fields.record (by simp) room).bound
      (fun p => Expr.unary (.assert p.1 p.2.1) p.2.2) (by simp [Prod.ext_iff, and_assoc]) found
    exact ⟨⟨_, _, rfl⟩, rfl, _, rfl, again⟩
  case h_4 =>
    obtain ⟨⟨property, value⟩, rfl, again⟩ :=
      Keeps.bound (keeps_scalarAndExpr keeps keeps_int32 (by decide) room)
        (fun p => Expr.unary (.letPersistent p.1) p.2) (by simp [Prod.ext_iff]) found
    exact ⟨⟨_, _, rfl⟩, rfl, _, rfl, again⟩
  case h_5 =>
    obtain ⟨⟨member, struct⟩, rfl, again⟩ :=
      Keeps.bound (keeps_scalarAndExpr keeps keeps_int32 (by decide) room)
        (fun p => Expr.unary (.structMember p.1) p.2) (by simp [Prod.ext_iff]) found
    exact ⟨⟨_, _, rfl⟩, rfl, _, rfl, again⟩
  case h_6 =>
    have fields := Fields.Keeps.more "conversion" keeps_conversion (.one "target" keeps)
    obtain ⟨⟨conversion, target⟩, rfl, again⟩ := (fields.record (by simp) room).bound
      (fun p => Expr.unary (.primitiveCast p.1) p.2) (by simp [Prod.ext_iff]) found
    exact ⟨⟨_, _, rfl⟩, rfl, _, rfl, again⟩
  case h_7 =>
    split at found
    · rename_i wrapper named
      have tagged : wrapper.token.tag = tag := tag_of_ofTag? named
      obtain ⟨operand, rfl, again⟩ :=
        (keeps room).made (Expr.unary (.wrap wrapper)) (by simp) found
      subst tagged
      exact ⟨⟨_, _, rfl⟩, rfl, _, rfl, again⟩
    · obtain ⟨kind, named, found⟩ := Option.bind_eq_some_iff.mp found
      have tagged : kind.token.tag = tag := tag_of_ofTag? named
      obtain ⟨⟨target, operand⟩, rfl, again⟩ :=
        Keeps.bound (keeps_scalarAndExpr keeps keeps_int32 (by decide) room)
          (fun p => Expr.unary (.classCast kind p.1) p.2) (by simp [Prod.ext_iff]) found
      subst tagged
      refine ⟨⟨_, _, rfl⟩, rfl, _, rfl, ?_⟩
      simp only [named]
      exact again

private theorem binaryOfJson?_again {tag : String} {payload : Json} {e : Expr SymbolRef}
    (found : Expr.binaryOfJson? expr tag room payload = some e) :
    (∃ op a b, e = .binary op a b) ∧ e.Again tag (Expr.binaryOfJson? expr tag room) := by
  unfold Expr.binaryOfJson? at found
  unfold Expr.Again Expr.binaryOfJson?
  split at found
  case h_1 =>
    obtain ⟨⟨property, target, value⟩, rfl, again⟩ :=
      Keeps.bound (keeps_scalarAndPair keeps keeps_int32 (by decide) room)
        (fun p => Expr.binary (.assignProperty p.1) p.2.1 p.2.2) (by simp [Prod.ext_iff]) found
    exact ⟨⟨_, _, _, rfl⟩, rfl, _, rfl, again⟩
  case h_2 =>
    obtain ⟨⟨array, index⟩, rfl, again⟩ := Keeps.bound (keeps_exprPair keeps (by decide) room)
      (fun p => Expr.binary .arrayElement p.1 p.2) (by simp [Prod.ext_iff]) found
    exact ⟨⟨_, _, _, rfl⟩, rfl, _, rfl, again⟩
  case h_3 =>
    obtain ⟨⟨delegate, added⟩, rfl, again⟩ := Keeps.bound (keeps_exprPair keeps (by decide) room)
      (fun p => Expr.binary .addDelegate p.1 p.2) (by simp [Prod.ext_iff]) found
    exact ⟨⟨_, _, _, rfl⟩, rfl, _, rfl, again⟩
  case h_4 =>
    obtain ⟨⟨delegate, removed⟩, rfl, again⟩ := Keeps.bound (keeps_exprPair keeps (by decide) room)
      (fun p => Expr.binary .removeDelegate p.1 p.2) (by simp [Prod.ext_iff]) found
    exact ⟨⟨_, _, _, rfl⟩, rfl, _, rfl, again⟩
  case h_5 =>
    obtain ⟨⟨function, delegate, object⟩, rfl, again⟩ :=
      Keeps.bound (keeps_scalarAndPair keeps keeps_text (by decide) room)
        (fun p => Expr.binary (.bindDelegate p.1) p.2.1 p.2.2) (by simp [Prod.ext_iff]) found
    exact ⟨⟨_, _, _, rfl⟩, rfl, _, rfl, again⟩
  case h_6 =>
    split at found
    · rename_i kind named
      have tagged : kind.token.tag = tag := tag_of_ofTag? named
      obtain ⟨⟨target, value⟩, rfl, again⟩ := Keeps.bound (keeps_exprPair keeps (by decide) room)
        (fun p => Expr.binary (.assign kind) p.1 p.2) (by simp [Prod.ext_iff]) found
      subst tagged
      exact ⟨⟨_, _, _, rfl⟩, rfl, _, rfl, again⟩
    · obtain ⟨kind, named, found⟩ := Option.bind_eq_some_iff.mp found
      have tagged : kind.token.tag = tag := tag_of_ofTag? named
      have fields := Fields.Keeps.more "object" keeps (.more "skip" keeps_uint32.scalar
        (.more "field" keeps_int32.scalar (.one "member" keeps)))
      obtain ⟨⟨object, skip, field, member⟩, rfl, again⟩ := (fields.record (by simp) room).bound
        (fun p => Expr.binary (.context kind p.2.1 p.2.2.1) p.1 p.2.2.2)
        (by simp [Prod.ext_iff]; tauto) found
      subst tagged
      refine ⟨⟨_, _, _, rfl⟩, rfl, _, rfl, ?_⟩
      simp only [named]
      exact again

omit keeps in
/-- An expression whose operation takes a list of operands. -/
def Expr.Listed (e : Expr SymbolRef) : Prop :=
  (∃ op operands, e = .variadic op operands) ∨ (∃ op leader operands, e = .led op leader operands) ∨
    ∃ endOffset index cases default, e = .switch endOffset index cases default

private theorem listedOfJson?_again {tag : String} {payload : Json} {e : Expr SymbolRef}
    (found : Expr.listedOfJson? expr tag room payload = some e) :
    e.Listed ∧ e.Again tag (Expr.listedOfJson? expr tag room) := by
  unfold Expr.listedOfJson? at found
  unfold Expr.Again Expr.listedOfJson?
  split at found
  case h_1 =>
    have fields := Fields.Keeps.more "target" keeps_int32.scalar
      (.more "delegate" keeps (.one "params" (keeps_all keeps)))
    obtain ⟨⟨target, delegate, operands⟩, rfl, again⟩ := (fields.record (by simp) room).bound
      (fun p => Expr.led (.callDelegate p.1) p.2.1 p.2.2) (by simp [Prod.ext_iff]) found
    exact ⟨.inr (.inl ⟨_, _, _, rfl⟩), rfl, _, rfl, again⟩
  case h_2 =>
    obtain ⟨⟨type, members⟩, rfl, again⟩ :=
      Keeps.bound (keeps_scalarAndList keeps keeps_int32 (by decide) room)
        (fun p => Expr.variadic (.struct p.1) p.2) (by simp [Prod.ext_iff]) found
    exact ⟨.inl ⟨_, _, rfl⟩, rfl, _, rfl, again⟩
  case h_3 =>
    have fields := Fields.Keeps.more "key" keeps_int32.scalar
      (.more "value" keeps_int32.scalar (.one "elements" (keeps_all keeps)))
    obtain ⟨⟨key, value, elements⟩, rfl, again⟩ := (fields.record (by simp) room).bound
      (fun p => Expr.variadic (.map p.1 p.2.1) p.2.2) (by simp [Prod.ext_iff, and_assoc]) found
    exact ⟨.inl ⟨_, _, rfl⟩, rfl, _, rfl, again⟩
  case h_4 =>
    have fields := Fields.Keeps.more "end_offset" keeps_uint32.scalar
      (.more "index" keeps (.more "cases" (keeps_cases keeps) (.one "default" keeps)))
    obtain ⟨⟨endOffset, index, cases, default⟩, rfl, again⟩ :=
      (fields.record (by simp) room).bound
        (fun p => Expr.switch p.1 p.2.1 p.2.2.1 p.2.2.2) (by simp [Prod.ext_iff]) found
    exact ⟨.inr (.inr ⟨_, _, _, _, rfl⟩), rfl, _, rfl, again⟩
  case h_5 =>
    split at found
    · rename_i kind named
      have tagged : kind.token.tag = tag := tag_of_ofTag? named
      obtain ⟨⟨target, operands⟩, rfl, again⟩ :=
        Keeps.bound (keeps_scalarAndList keeps keeps_int32 (by decide) room)
          (fun p => Expr.variadic (.call kind p.1) p.2) (by simp [Prod.ext_iff]) found
      subst tagged
      exact ⟨.inl ⟨_, _, rfl⟩, rfl, _, rfl, again⟩
    · rename_i kind named _
      have tagged : kind.token.tag = tag := tag_of_ofTag? named
      obtain ⟨⟨name, operands⟩, rfl, again⟩ :=
        Keeps.bound (keeps_scalarAndList keeps keeps_text (by decide) room)
          (fun p => Expr.variadic (.virtualCall kind p.1) p.2) (by simp [Prod.ext_iff]) found
      subst tagged
      exact ⟨.inl ⟨_, _, rfl⟩, rfl, _, rfl, again⟩
    · rename_i kind named _ _
      have tagged : kind.token.tag = tag := tag_of_ofTag? named
      obtain ⟨⟨inner, elements⟩, rfl, again⟩ :=
        Keeps.bound (keeps_scalarAndList keeps keeps_int32 (by decide) room)
          (fun p => Expr.variadic (.collection kind p.1) p.2) (by simp [Prod.ext_iff]) found
      subst tagged
      exact ⟨.inl ⟨_, _, rfl⟩, rfl, _, rfl, again⟩
    · obtain ⟨kind, named, found⟩ := Option.bind_eq_some_iff.mp found
      have tagged : kind.token.tag = tag := tag_of_ofTag? named
      have fields := Fields.Keeps.more "property" keeps (.one "elements" (keeps_all keeps))
      obtain ⟨⟨property, elements⟩, rfl, again⟩ := (fields.record (by simp) room).bound
        (fun p => Expr.led (.assignContainer kind) p.1 p.2) (by simp [Prod.ext_iff]) found
      subst tagged
      refine ⟨.inr (.inl ⟨_, _, _, rfl⟩), rfl, _, rfl, ?_⟩
      simp only [named]
      exact again

/-! ### Texts -/

private theorem textOfJson?_again {payload : Json} {e : Expr SymbolRef}
    (found : Expr.textOfJson? expr room payload = some e) :
    e.Again textToken.tag (Expr.textOfJson? expr room) := by
  unfold Expr.textOfJson? at found
  split at found
  case h_1 =>
    cases found
    exact ⟨rfl, _, rfl, by simp [Expr.textOfJson?, Expr.floats, Atom.floats]⟩
  case h_2 =>
    cases found
    exact ⟨rfl, _, rfl, by simp [Expr.textOfJson?, Expr.floats, Atom.floats]⟩
  case h_3 =>
    rename_i inner text shown
    obtain rfl := variant?_room shown
    have fields := Fields.Keeps.more "source" keeps (.more "key" keeps (.one "namespace" keeps))
    obtain ⟨⟨source, key, space⟩, rfl, again⟩ := (fields.record (by simp) inner).bound
      (fun p => Expr.localizedText p.1 p.2.1 p.2.2) (by simp [Prod.ext_iff]) found
    refine ⟨rfl, _, rfl, ?_⟩
    rw [Expr.textOfJson?, variant?_record]
    exact again
  case h_4 =>
    rename_i inner text shown
    obtain rfl := variant?_room shown
    obtain ⟨⟨table, id, key⟩, rfl, again⟩ :=
      Keeps.bound (keeps_scalarAndPair keeps keeps_int32 (by decide) inner)
        (fun p => Expr.binary (.tableText p.1) p.2.1 p.2.2) (by simp [Prod.ext_iff]) found
    refine ⟨rfl, _, rfl, ?_⟩
    rw [Expr.textOfJson?, Binary.payload, variant?_record]
    exact again
  case h_5 =>
    rename_i inner text _ _ _ shown
    obtain rfl := variant?_room shown
    obtain ⟨kind, _, found⟩ := Option.bind_eq_some_iff.mp found
    obtain ⟨operand, rfl, again⟩ := (keeps inner).bound (Expr.unary (.text kind)) (by simp) found
    refine ⟨rfl, _, rfl, ?_⟩
    rw [Expr.textOfJson?, Unary.payload, variant?_record]
    cases kind <;> exact again
  case h_6 => cases found

/-! ### Tags

The readers of operations with a payload are asked one after the other. A tag belongs to one of them,
so whichever answered for the payload that was read is the one that answers for the written one. -/

omit keeps

private theorem payloadOfJson?_atom {op : Atom SymbolRef} {payload : Json}
    (other : op.token.tag ≠ textToken.tag) (has : op.payload?.isSome) :
    Expr.payloadOfJson? expr op.token.tag room payload =
      (Expr.atomOfJson? op.token.tag room payload).map .atom := by
  obtain ⟨unary, binary, listed⟩ : Expr.unaryOfJson? expr op.token.tag room payload = none ∧
      Expr.binaryOfJson? expr op.token.tag room payload = none ∧
      Expr.listedOfJson? expr op.token.tag room payload = none := by
    cases op with
    | readVariable scope => cases scope <;> exact ⟨rfl, rfl, rfl⟩
    | marker => cases has
    | emptyText => exact absurd rfl other
    | _ => exact ⟨rfl, rfl, rfl⟩
  simp [Expr.payloadOfJson?, other, unary, binary, listed]

private theorem payloadOfJson?_unary {op : Unary SymbolRef} {payload : Json}
    (other : op.token.tag ≠ textToken.tag) :
    Expr.payloadOfJson? expr op.token.tag room payload =
      Expr.unaryOfJson? expr op.token.tag room payload := by
  obtain ⟨atom, binary, listed⟩ : Expr.atomOfJson? op.token.tag room payload = none ∧
      Expr.binaryOfJson? expr op.token.tag room payload = none ∧
      Expr.listedOfJson? expr op.token.tag room payload = none := by
    cases op with
    | wrap wrapper => cases wrapper <;> exact ⟨rfl, rfl, rfl⟩
    | classCast kind => cases kind <;> exact ⟨rfl, rfl, rfl⟩
    | text => exact absurd rfl other
    | _ => exact ⟨rfl, rfl, rfl⟩
  simp [Expr.payloadOfJson?, other, atom, binary, listed]

private theorem payloadOfJson?_binary {op : Binary SymbolRef} {payload : Json}
    (other : op.token.tag ≠ textToken.tag) :
    Expr.payloadOfJson? expr op.token.tag room payload =
      Expr.binaryOfJson? expr op.token.tag room payload := by
  obtain ⟨atom, unary, listed⟩ : Expr.atomOfJson? op.token.tag room payload = none ∧
      Expr.unaryOfJson? expr op.token.tag room payload = none ∧
      Expr.listedOfJson? expr op.token.tag room payload = none := by
    cases op with
    | assign kind => cases kind <;> exact ⟨rfl, rfl, rfl⟩
    | context kind => cases kind <;> exact ⟨rfl, rfl, rfl⟩
    | tableText => exact absurd rfl other
    | _ => exact ⟨rfl, rfl, rfl⟩
  simp [Expr.payloadOfJson?, other, atom, unary, listed]

private theorem payloadOfJson?_listed {e : Expr SymbolRef} (isListed : e.Listed) {payload : Json}
    (other : e.token.tag ≠ textToken.tag) :
    Expr.payloadOfJson? expr e.token.tag room payload =
      Expr.listedOfJson? expr e.token.tag room payload := by
  obtain ⟨atom, unary, binary⟩ : Expr.atomOfJson? e.token.tag room payload = none ∧
      Expr.unaryOfJson? expr e.token.tag room payload = none ∧
      Expr.binaryOfJson? expr e.token.tag room payload = none := by
    rcases isListed with ⟨op, _, rfl⟩ | ⟨op, _, _, rfl⟩ | ⟨_, _, _, _, rfl⟩
    · cases op with
      | call kind => cases kind <;> exact ⟨rfl, rfl, rfl⟩
      | virtualCall kind => cases kind <;> exact ⟨rfl, rfl, rfl⟩
      | collection kind => cases kind <;> exact ⟨rfl, rfl, rfl⟩
      | _ => exact ⟨rfl, rfl, rfl⟩
    · cases op with
      | assignContainer kind => cases kind <;> exact ⟨rfl, rfl, rfl⟩
      | callDelegate => exact ⟨rfl, rfl, rfl⟩
    · exact ⟨rfl, rfl, rfl⟩
  simp [Expr.payloadOfJson?, other, atom, unary, binary]

include keeps in
private theorem payloadOfJson?_again {tag : String} {payload : Json} {e : Expr SymbolRef}
    (found : Expr.payloadOfJson? expr tag room payload = some e) :
    e.Again tag (Expr.payloadOfJson? expr tag room) := by
  by_cases text : tag = textToken.tag
  · subst text
    have same (payload : Json) : Expr.payloadOfJson? expr textToken.tag room payload =
        Expr.textOfJson? expr room payload := if_pos rfl
    rw [same] at found
    obtain ⟨tagged, written, shown, again⟩ := textOfJson?_again keeps found
    exact ⟨tagged, written, shown, by rwa [same]⟩
  have answered : (Expr.atomOfJson? tag room payload).map .atom = some e ∨
      Expr.unaryOfJson? expr tag room payload = some e ∨
      Expr.binaryOfJson? expr tag room payload = some e ∨
      Expr.listedOfJson? expr tag room payload = some e := by
    simp only [Expr.payloadOfJson?, if_neg text, Option.orElse_eq_orElse, Option.orElse_eq_or,
      Option.or_eq_some_iff] at found
    tauto
  rcases answered with answered | answered | answered | answered
  · obtain ⟨op, isRead, rfl⟩ := Option.map_eq_some_iff.mp answered
    obtain ⟨rfl, written, shown, again⟩ := atomOfJson?_again isRead
    refine ⟨rfl, written, by simp [Expr.toJson, shown], ?_⟩
    rw [payloadOfJson?_atom text (by simp [shown]), Expr.floats, ← again]
    simp
  · obtain ⟨⟨op, a, rfl⟩, rfl, written, shown, again⟩ := unaryOfJson?_again keeps answered
    refine ⟨rfl, written, shown, ?_⟩
    rwa [Expr.token, payloadOfJson?_unary text]
  · obtain ⟨⟨op, a, b, rfl⟩, rfl, written, shown, again⟩ := binaryOfJson?_again keeps answered
    refine ⟨rfl, written, shown, ?_⟩
    rwa [Expr.token, payloadOfJson?_binary text]
  · obtain ⟨isListed, rfl, written, shown, again⟩ := listedOfJson?_again keeps answered
    refine ⟨rfl, written, shown, ?_⟩
    rwa [payloadOfJson?_listed isListed text]

/-! ### Expressions -/

theorem ofBareTag?_eq_some {tag : String} {e : Expr SymbolRef}
    (found : Expr.ofBareTag? tag = some e) : ∃ m : Marker, e = .atom (.marker m) ∧ m.token.tag = tag := by
  obtain ⟨m, named, rfl⟩ := Option.map_eq_some_iff.mp found
  exact ⟨m, rfl, tag_of_ofTag? named⟩

private theorem ofBareTag?_marker (m : Marker) :
    Expr.ofBareTag? m.token.tag = some (.atom (.marker m)) := by
  cases m <;> rfl

include keeps in
/-- One expression is read back if its operands are. -/
private theorem keeps_step (room : Nat) : Keeps (Expr.step? expr room) Expr.toJson Expr.floats := by
  intro json e found
  have bare {m : Marker} : Expr.step? expr room (Expr.toJson (.atom (.marker m))) =
      some (.atom (.marker m)) := by
    have written : Expr.toJson (.atom (.marker m)) = .ofText m.token.tag := rfl
    simp [written, Expr.step?, ofBareTag?_marker]
  unfold Expr.step? at found
  split at found
  · obtain ⟨m, rfl, _⟩ := ofBareTag?_eq_some found
    simp [bare, Expr.floats, Atom.floats]
  · rename_i tag inner payload shown
    obtain rfl := variant?_room shown
    split at found
    · rename_i marker named
      split at found
      · cases found
        obtain ⟨m, rfl, _⟩ := ofBareTag?_eq_some named
        simp [bare, Expr.floats, Atom.floats]
      · cases found
    · rename_i unnamed
      obtain ⟨tagged, written, spelled, again⟩ := payloadOfJson?_again keeps found
      rw [spelled, Expr.step?, variant?_record]
      simp only [unnamed]
      exact again
  · cases found

omit expr in
private theorem keeps_levels (level room : Nat) :
    Keeps (Expr.levels? level room) Expr.toJson Expr.floats := by
  induction level generalizing room with
  | zero =>
    intro json e found
    cases found
  | succ level ih => exact keeps_step ih room

/-- An expression is read back exactly if all of its numbers survive. -/
theorem keeps_expr (room : Nat) : Keeps (Expr.ofJson? room) Expr.toJson Expr.floats :=
  keeps_levels (room + 1) room

end Step

end ScriptFlow
