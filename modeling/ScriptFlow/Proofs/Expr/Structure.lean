import ScriptFlow.Symbols

/-! Expressions as trees. Lists of operands and the cases of a switch nest expressions inside other
types; the induction principle here hands out one hypothesis for each operand, wherever it stands,
and the traversals of lists are the ordinary ones. An expression is known when no unknown token
occurs in it at any depth, under texts and cases included. -/
namespace ScriptFlow

variable {ρ σ : Type}

/-- What holds of an expression whenever it holds of its operands holds of every expression. -/
@[induction_eliminator]
theorem Expr.operandInduction {motive : Expr ρ → Prop}
    (atom : ∀ op, motive (.atom op))
    (unary : ∀ op a, motive a → motive (.unary op a))
    (binary : ∀ op a b, motive a → motive b → motive (.binary op a b))
    (localizedText : ∀ source key space, motive source → motive key → motive space →
      motive (.localizedText source key space))
    (variadic : ∀ op operands, (∀ e ∈ operands, motive e) → motive (.variadic op operands))
    (led : ∀ op leader operands, motive leader → (∀ e ∈ operands, motive e) →
      motive (.led op leader operands))
    (switch : ∀ endOffset index cases default, motive index →
      (∀ c ∈ cases, motive c.value ∧ motive c.result) → motive default →
      motive (.switch endOffset index cases default)) (e : Expr ρ) : motive e := by
  refine @Expr.rec ρ motive (fun operands => ∀ e ∈ operands, motive e)
    (fun cases => ∀ c ∈ cases, motive c.value ∧ motive c.result)
    (fun c => motive c.value ∧ motive c.result)
    atom unary binary localizedText variadic led switch ?_ ?_ ?_ ?_ ?_ e
  · simp
  · intro head tail headHolds tailHolds e member
    rcases List.mem_cons.mp member with rfl | member
    · exact headHolds
    · exact tailHolds e member
  · simp
  · intro head tail headHolds tailHolds c member
    rcases List.mem_cons.mp member with rfl | member
    · exact headHolds
    · exact tailHolds c member
  · intro value nextOffset result valueHolds resultHolds
    exact ⟨valueHolds, resultHolds⟩

/-- Whether an operation without operands is one that has a token of its own. -/
def Atom.known : Atom ρ → Bool
  | .unknown _ => false
  | _ => true

mutual

/-- Whether no unknown token occurs in an expression. -/
def Expr.known : Expr ρ → Bool
  | .atom op => op.known
  | .unary _ a => a.known
  | .binary _ a b => a.known && b.known
  | .localizedText source key space => source.known && key.known && space.known
  | .variadic _ operands => knownAll operands
  | .led _ leader operands => leader.known && knownAll operands
  | .switch _ index cases default => index.known && knownCases cases && default.known

/-- Whether no unknown token occurs in a list of expressions. -/
def knownAll : List (Expr ρ) → Bool
  | [] => true
  | e :: rest => e.known && knownAll rest

/-- Whether no unknown token occurs in the cases of a switch. -/
def knownCases : List (SwitchCase (Expr ρ)) → Bool
  | [] => true
  | ⟨value, _, result⟩ :: rest => value.known && result.known && knownCases rest

end

@[simp] theorem knownAll_iff (operands : List (Expr ρ)) :
    knownAll operands = true ↔ ∀ e ∈ operands, e.known = true := by
  induction operands with
  | nil => simp [knownAll]
  | cons e rest ih => simp [knownAll, ih]

@[simp] theorem knownCases_iff (cases : List (SwitchCase (Expr ρ))) :
    knownCases cases = true ↔ ∀ c ∈ cases, c.value.known = true ∧ c.result.known = true := by
  induction cases with
  | nil => simp [knownCases]
  | cons c rest ih => simp [knownCases, ih]

/-- Only an unknown token by itself reports an opcode. -/
theorem unknown?_of_known {e : Expr ρ} (known : e.known = true) : e.unknown? = none := by
  cases e with
  | atom op => cases op <;> first | rfl | cases known
  | _ => rfl

section MapRefs

variable (property object : ρ → σ)

/-- The cases of a switch with their references replaced. -/
theorem mapRefsCases_eq_map (cases : List (SwitchCase (Expr ρ))) :
    mapRefsCases property object cases = cases.map fun c =>
      ⟨c.value.mapRefs property object, c.nextOffset, c.result.mapRefs property object⟩ := by
  induction cases with
  | nil => rfl
  | cons c rest ih => simp [mapRefsCases, ih]

theorem mapRefsAll_eq_map (operands : List (Expr ρ)) :
    mapRefsAll property object operands = operands.map (·.mapRefs property object) := by
  induction operands with
  | nil => rfl
  | cons e rest ih => simp [mapRefsAll, ih]

/-- Naming references neither adds nor removes an unknown token. -/
@[simp] theorem mapRefs_known (e : Expr ρ) : (e.mapRefs property object).known = e.known := by
  induction e with
  | atom op => cases op <;> rfl
  | unary op a ih => simpa [Expr.mapRefs, Expr.known] using ih
  | binary op a b first second => simp [Expr.mapRefs, Expr.known, first, second]
  | localizedText source key space first second third =>
    simp [Expr.mapRefs, Expr.known, first, second, third]
  | variadic op operands ih =>
    rw [Bool.eq_iff_iff]
    simp only [Expr.mapRefs, Expr.known, knownAll_iff, mapRefsAll_eq_map, List.forall_mem_map]
    exact forall₂_congr fun e member => by rw [ih e member]
  | led op leader operands first ih =>
    rw [Bool.eq_iff_iff]
    simp only [Expr.mapRefs, Expr.known, Bool.and_eq_true, knownAll_iff, mapRefsAll_eq_map,
      List.forall_mem_map, first]
    exact and_congr_right fun _ => forall₂_congr fun e member => by rw [ih e member]
  | switch endOffset index cases default first ih last =>
    rw [Bool.eq_iff_iff]
    simp only [Expr.mapRefs, Expr.known, Bool.and_eq_true, knownCases_iff, mapRefsCases_eq_map,
      List.forall_mem_map, first, last]
    refine and_congr_left fun _ => and_congr_right fun _ => forall₂_congr fun c member => ?_
    rw [(ih c member).1, (ih c member).2]

end MapRefs

/-- Naming references neither adds nor removes an unknown token. -/
@[simp] theorem resolve_known (symbols : Symbols) (e : Expr SymbolRef) :
    (symbols.resolve e).known = e.known :=
  mapRefs_known _ _ e

end ScriptFlow
