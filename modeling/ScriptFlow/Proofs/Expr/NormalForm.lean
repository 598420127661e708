import Mathlib.Tactic.Tauto
import ScriptFlow.Expr.Equality
import ScriptFlow.Proofs.Expr.Structure

/-! Structural equality is equality of normal forms. The normal form of an expression names every
reference and forgets the bookkeeping of context accesses and switches, and nothing else; numbers
are their words already. The comparison reaches every part of two expressions that turn out equal,
so that success also says that no unknown token occurs in them. -/
namespace ScriptFlow

/-- The operation without the bytes to skip and the receiving property of a context access. -/
def Binary.normal : Binary String → Binary String
  | .context kind _ _ => .context kind 0 ""
  | op => op

mutual

/-- The expression without the bookkeeping of its context accesses and switches. -/
def Expr.normal : Expr String → Expr String
  | .atom op => .atom op
  | .unary op a => .unary op a.normal
  | .binary op a b => .binary op.normal a.normal b.normal
  | .localizedText source key space => .localizedText source.normal key.normal space.normal
  | .variadic op operands => .variadic op (normalAll operands)
  | .led op leader operands => .led op leader.normal (normalAll operands)
  | .switch _ index cases default => .switch 0 index.normal (normalCases cases) default.normal

/-- The normal forms of a list of expressions. -/
def normalAll : List (Expr String) → List (Expr String)
  | [] => []
  | e :: rest => e.normal :: normalAll rest

/-- The cases of a switch in normal form, without the offsets between them. -/
def normalCases : List (SwitchCase (Expr String)) → List (SwitchCase (Expr String))
  | [] => []
  | ⟨value, _, result⟩ :: rest => ⟨value.normal, 0, result.normal⟩ :: normalCases rest

end

/-- The normal form of an expression under the given symbols: properties and objects stand under
their names. -/
def Symbols.normal (symbols : Symbols) (e : Expr SymbolRef) : Expr String :=
  (symbols.resolve e).normal

/-- A case in normal form. -/
def SwitchCase.normal (c : SwitchCase (Expr String)) : SwitchCase (Expr String) :=
  ⟨c.value.normal, 0, c.result.normal⟩

@[simp] theorem normalAll_eq_map (operands : List (Expr String)) :
    normalAll operands = operands.map Expr.normal := by
  induction operands with
  | nil => rfl
  | cons e rest ih => simp [normalAll, ih]

@[simp] theorem normalCases_eq_map (cases : List (SwitchCase (Expr String))) :
    normalCases cases = cases.map SwitchCase.normal := by
  induction cases with
  | nil => rfl
  | cons c rest ih => simp [normalCases, SwitchCase.normal, ih]

/-- Operations agree exactly when their normal forms are the same. -/
theorem Binary.agrees_iff (f g : Binary String) : f.agrees g = true ↔ f.normal = g.normal := by
  cases f <;> cases g <;> simp [Binary.agrees, Binary.normal]

/-- Operations that agree compare their operands in the same order. -/
private theorem Binary.secondFirst_of_normal {f g : Binary String} (same : f.normal = g.normal) :
    f.secondFirst = g.secondFirst := by
  cases f <;> cases g <;> first | rfl | simp [Binary.normal] at same

/-! ### Two comparisons in a row -/

theorem both_true_iff (first : Except ModelGap Bool) (second : Unit → Except ModelGap Bool) :
    both first second = .ok true ↔ first = .ok true ∧ second () = .ok true := by
  rcases first with gap | _ | _ <;> simp [both]

/-- What a comparison says, its failures all taken as one. -/
theorem both_toOption (first : Except ModelGap Bool) (second : Unit → Except ModelGap Bool) :
    (both first second).toOption =
      first.toOption.bind fun holds => if holds then (second ()).toOption else some false := by
  rcases first with gap | _ | _ <;> simp [both, Except.toOption]

/-- A comparison says a result exactly when it returns it. -/
theorem toOption_eq_some {α : Type} {result : Except ModelGap α} {v : α} :
    result.toOption = some v ↔ result = .ok v := by
  cases result <;> simp [Except.toOption]

private theorem both_decides {first : Except ModelGap Bool}
    {second : Unit → Except ModelGap Bool} (firstDecides : first.toOption.isSome)
    (secondDecides : (second ()).toOption.isSome) : (both first second).toOption.isSome := by
  rcases first with gap | _ | _
  · cases firstDecides
  · rfl
  · exact secondDecides

private theorem both_swap {first first' : Except ModelGap Bool}
    {second second' : Unit → Except ModelGap Bool}
    (firstSame : first.toOption = first'.toOption)
    (secondSame : first'.toOption = some true → (second ()).toOption = (second' ()).toOption) :
    (both first second).toOption = (both first' second').toOption := by
  rw [both_toOption, both_toOption, firstSame]
  rcases first' with gap | _ | _
  · rfl
  · rfl
  · exact secondSame rfl

/-! ### The comparison, one form at a time -/

theorem agrees_unary (f g : Unary String) (x y : Expr String) :
    (Expr.unary f x).agrees (.unary g y) = both (.ok (f.agrees g)) fun _ => x.agrees y := rfl

theorem agrees_binary (f g : Binary String) (x₁ x₂ y₁ y₂ : Expr String) :
    (Expr.binary f x₁ x₂).agrees (.binary g y₁ y₂) = both (.ok (f.agrees g)) fun _ =>
      if f.secondFirst then both (x₂.agrees y₂) fun _ => x₁.agrees y₁
      else both (x₁.agrees y₁) fun _ => x₂.agrees y₂ := rfl

theorem agrees_localizedText (x₁ x₂ x₃ y₁ y₂ y₃ : Expr String) :
    (Expr.localizedText x₁ x₂ x₃).agrees (.localizedText y₁ y₂ y₃) =
      both (x₁.agrees y₁) fun _ => both (x₂.agrees y₂) fun _ => x₃.agrees y₃ := rfl

theorem agrees_variadic (f g : Variadic String) (xs ys : List (Expr String)) :
    (Expr.variadic f xs).agrees (.variadic g ys) =
      both (.ok (f.agrees g && xs.length == ys.length)) fun _ => agreeAll xs ys := rfl

theorem agrees_led (f g : Led String) (x y : Expr String) (xs ys : List (Expr String)) :
    (Expr.led f x xs).agrees (.led g y ys) = both (.ok (f.agrees g)) fun _ =>
      both (x.agrees y) fun _ => both (.ok (xs.length == ys.length)) fun _ => agreeAll xs ys := rfl

theorem agrees_switch (o o' : UInt32) (x x' y y' : Expr String)
    (xs ys : List (SwitchCase (Expr String))) :
    (Expr.switch o x xs x').agrees (.switch o' y ys y') = both (x.agrees y) fun _ =>
      both (.ok (xs.length == ys.length)) fun _ =>
        both (agreeCases xs ys) fun _ => x'.agrees y' := rfl

/-- A comparison that meets an unknown token by itself fails, whichever side it is on. -/
private theorem agrees_unknown {a b : Expr String}
    (gap : a.unknown?.isSome = true ∨ b.unknown?.isSome = true) :
    (a.agrees b).toOption = none := by
  rw [Expr.agrees.eq_def]
  cases bGap : b.unknown? with
  | some opcode => simp only [bGap, Except.toOption]
  | none =>
    cases aGap : a.unknown? with
    | some opcode => simp only [aGap, bGap, Except.toOption]
    | none => simp [aGap, bGap] at gap

/-- Operations without operands are compared as they are, unless one of them is unknown. -/
private theorem agrees_atom {f g : Atom String} (fKnown : f.known = true)
    (gKnown : g.known = true) : (Expr.atom f).agrees (.atom g) = .ok (f.agrees g) := by
  rw [Expr.agrees, unknown?_of_known (e := .atom g) gKnown, unknown?_of_known (e := .atom f) fKnown]

/-- Expressions of different forms are unequal, unless one of them is an unknown token. -/
private theorem agrees_other {a b : Expr String} (aKnown : a.unknown? = none)
    (bKnown : b.unknown? = none) (different : a.ctorIdx ≠ b.ctorIdx) :
    a.agrees b = .ok false := by
  rw [Expr.agrees.eq_def]
  simp only [aKnown, bKnown]
  cases a <;> cases b <;> first | rfl | exact absurd rfl different

private theorem unknown?_of_not_known {f : Atom String} (gap : ¬ f.known = true) :
    (Expr.atom f).unknown?.isSome = true := by
  cases f <;> first | rfl | exact absurd rfl gap

/-! ### Equality of normal forms -/

private theorem unequal_forms {a b : Expr String} (different : a.ctorIdx ≠ b.ctorIdx) :
    a.agrees b = .ok true ↔ a.known = true ∧ b.known = true ∧ a.normal = b.normal := by
  refine iff_of_false (fun holds => ?_) (fun ⟨aKnown, bKnown, same⟩ => different ?_)
  · have decided : (a.agrees b).toOption = some true := by rw [holds]; rfl
    cases aGap : a.unknown? with
    | some opcode => rw [agrees_unknown (.inl (by simp [aGap]))] at decided; cases decided
    | none =>
      cases bGap : b.unknown? with
      | some opcode => rw [agrees_unknown (.inr (by simp [bGap]))] at decided; cases decided
      | none => rw [agrees_other aGap bGap different] at holds; cases holds
  · have form (e : Expr String) : e.normal.ctorIdx = e.ctorIdx := by cases e <;> rfl
    rw [← form a, ← form b, same]

/-- That the comparison with `a` succeeds exactly on equal normal forms. -/
private def Exact (a : Expr String) : Prop :=
  ∀ b, a.agrees b = .ok true ↔ a.known = true ∧ b.known = true ∧ a.normal = b.normal

private theorem agreeAll_true_iff (xs ys : List (Expr String)) (exact : ∀ x ∈ xs, Exact x) :
    xs.length = ys.length ∧ agreeAll xs ys = .ok true ↔
      (∀ x ∈ xs, x.known = true) ∧ (∀ y ∈ ys, y.known = true) ∧
        xs.map Expr.normal = ys.map Expr.normal := by
  induction xs generalizing ys with
  | nil =>
    cases ys with
    | nil => simp [agreeAll]
    | cons y ys => simp
  | cons x xs ih =>
    cases ys with
    | nil => simp
    | cons y ys =>
      have rest := ih ys fun x member => exact x (List.mem_cons_of_mem _ member)
      rw [agreeAll, both_true_iff, exact x (by simp) y]
      simp only [List.length_cons, Nat.add_right_cancel_iff, List.forall_mem_cons, List.map_cons,
        List.cons.injEq]
      tauto

private theorem agreeCases_true_iff (xs ys : List (SwitchCase (Expr String)))
    (exact : ∀ c ∈ xs, Exact c.value ∧ Exact c.result) :
    xs.length = ys.length ∧ agreeCases xs ys = .ok true ↔
      (∀ c ∈ xs, c.value.known = true ∧ c.result.known = true) ∧
        (∀ c ∈ ys, c.value.known = true ∧ c.result.known = true) ∧
        xs.map SwitchCase.normal = ys.map SwitchCase.normal := by
  induction xs generalizing ys with
  | nil =>
    cases ys with
    | nil => simp [agreeCases]
    | cons y ys => simp
  | cons x xs ih =>
    cases ys with
    | nil => simp
    | cons y ys =>
      have rest := ih ys fun c member => exact c (List.mem_cons_of_mem _ member)
      obtain ⟨valueExact, resultExact⟩ := exact x (by simp)
      rw [agreeCases, both_true_iff, both_true_iff, valueExact y.value, resultExact y.result]
      simp only [List.length_cons, Nat.add_right_cancel_iff, List.forall_mem_cons, List.map_cons,
        List.cons.injEq, SwitchCase.normal, SwitchCase.mk.injEq]
      tauto

/-- Structural equality holds exactly between known expressions with the same normal form. -/
theorem agrees_true_iff (a b : Expr String) :
    a.agrees b = .ok true ↔ a.known = true ∧ b.known = true ∧ a.normal = b.normal := by
  induction a generalizing b with
  | atom f =>
    cases b with
    | atom g =>
      by_cases known : f.known = true ∧ g.known = true
      · rw [agrees_atom known.1 known.2]
        simp [Atom.agrees, Expr.known, Expr.normal, known.1, known.2]
      · have fails : ((Expr.atom f).agrees (.atom g)).toOption = none :=
          agrees_unknown ((not_and_or.mp known).imp unknown?_of_not_known unknown?_of_not_known)
        refine iff_of_false (fun holds => ?_) fun holds => known ⟨holds.1, holds.2.1⟩
        rw [holds] at fails
        cases fails
    | _ => exact unequal_forms (Nat.ne_of_beq_eq_false rfl)
  | unary f x ih =>
    cases b with
    | unary g y =>
      rw [agrees_unary, both_true_iff, ih y]
      simp only [Unary.agrees, Expr.known, Expr.normal, Except.ok.injEq, decide_eq_true_eq,
        Expr.unary.injEq]
      tauto
    | _ => exact unequal_forms (Nat.ne_of_beq_eq_false rfl)
  | binary f x₁ x₂ first second =>
    cases b with
    | binary g y₁ y₂ =>
      rw [agrees_binary, both_true_iff]
      split <;> rw [both_true_iff, first y₁, second y₂] <;>
        simp only [Except.ok.injEq, Binary.agrees_iff, Expr.known, Expr.normal, Bool.and_eq_true,
          Expr.binary.injEq] <;> tauto
    | _ => exact unequal_forms (Nat.ne_of_beq_eq_false rfl)
  | localizedText x₁ x₂ x₃ first second third =>
    cases b with
    | localizedText y₁ y₂ y₃ =>
      rw [agrees_localizedText, both_true_iff, both_true_iff, first y₁, second y₂, third y₃]
      simp only [Expr.known, Expr.normal, Bool.and_eq_true, Expr.localizedText.injEq]
      tauto
    | _ => exact unequal_forms (Nat.ne_of_beq_eq_false rfl)
  | variadic f xs ih =>
    cases b with
    | variadic g ys =>
      have lists := agreeAll_true_iff xs ys ih
      rw [agrees_variadic, both_true_iff]
      simp only [Variadic.agrees, Expr.known, Expr.normal, Except.ok.injEq, Bool.and_eq_true,
        decide_eq_true_eq, beq_iff_eq, knownAll_iff, normalAll_eq_map, Expr.variadic.injEq]
      tauto
    | _ => exact unequal_forms (Nat.ne_of_beq_eq_false rfl)
  | led f x xs first ih =>
    cases b with
    | led g y ys =>
      have lists := agreeAll_true_iff xs ys ih
      rw [agrees_led, both_true_iff, both_true_iff, both_true_iff, first y]
      simp only [Led.agrees, Expr.known, Expr.normal, Except.ok.injEq, Bool.and_eq_true,
        decide_eq_true_eq, beq_iff_eq, knownAll_iff, normalAll_eq_map, Expr.led.injEq]
      tauto
    | _ => exact unequal_forms (Nat.ne_of_beq_eq_false rfl)
  | switch o x xs x' first ih last =>
    cases b with
    | switch o' y ys y' =>
      have lists := agreeCases_true_iff xs ys ih
      rw [agrees_switch, both_true_iff, both_true_iff, both_true_iff, first y, last y']
      simp only [Expr.known, Expr.normal, Except.ok.injEq, Bool.and_eq_true, beq_iff_eq,
        knownCases_iff, normalCases_eq_map, Expr.switch.injEq]
      tauto
    | _ => exact unequal_forms (Nat.ne_of_beq_eq_false rfl)

/-! ### Failures -/

private theorem different_swap {a b : Expr String} (different : a.ctorIdx ≠ b.ctorIdx) :
    (a.agrees b).toOption = (b.agrees a).toOption := by
  cases aGap : a.unknown? with
  | some opcode => rw [agrees_unknown (.inl (by simp [aGap])), agrees_unknown (.inr (by simp [aGap]))]
  | none =>
    cases bGap : b.unknown? with
    | some opcode =>
      rw [agrees_unknown (.inr (by simp [bGap])), agrees_unknown (.inl (by simp [bGap]))]
    | none => rw [agrees_other aGap bGap different, agrees_other bGap aGap different.symm]

private theorem agreeAll_swap (xs ys : List (Expr String))
    (swap : ∀ x ∈ xs, ∀ b, (x.agrees b).toOption = (b.agrees x).toOption) :
    (agreeAll xs ys).toOption = (agreeAll ys xs).toOption := by
  induction xs generalizing ys with
  | nil => cases ys <;> rfl
  | cons x xs ih =>
    cases ys with
    | nil => rfl
    | cons y ys =>
      rw [agreeAll, agreeAll]
      exact both_swap (swap x (by simp) y) fun _ =>
        ih ys fun x member => swap x (List.mem_cons_of_mem _ member)

private theorem agreeCases_swap (xs ys : List (SwitchCase (Expr String)))
    (swap : ∀ c ∈ xs, (∀ b, (c.value.agrees b).toOption = (b.agrees c.value).toOption) ∧
      ∀ b, (c.result.agrees b).toOption = (b.agrees c.result).toOption) :
    (agreeCases xs ys).toOption = (agreeCases ys xs).toOption := by
  induction xs generalizing ys with
  | nil => cases ys <;> rfl
  | cons x xs ih =>
    cases ys with
    | nil => rfl
    | cons y ys =>
      rw [agreeCases, agreeCases]
      exact both_swap ((swap x (by simp)).1 y.value) fun _ =>
        both_swap ((swap x (by simp)).2 y.result) fun _ =>
          ih ys fun c member => swap c (List.mem_cons_of_mem _ member)

/-- A comparison and the comparison the other way round decide the same, and one fails exactly
when the other does. -/
theorem agrees_swap (a b : Expr String) : (a.agrees b).toOption = (b.agrees a).toOption := by
  induction a generalizing b with
  | atom f =>
    cases b with
    | atom g =>
      by_cases known : f.known = true ∧ g.known = true
      · rw [agrees_atom known.1 known.2, agrees_atom known.2 known.1]
        simp [Atom.agrees, eq_comm]
      · have gap := (not_and_or.mp known).imp unknown?_of_not_known unknown?_of_not_known
        rw [agrees_unknown gap, agrees_unknown gap.symm]
    | _ => exact different_swap (Nat.ne_of_beq_eq_false rfl)
  | unary f x ih =>
    cases b with
    | unary g y =>
      rw [agrees_unary, agrees_unary]
      exact both_swap (by simp [Unary.agrees, eq_comm]) fun _ => ih y
    | _ => exact different_swap (Nat.ne_of_beq_eq_false rfl)
  | binary f x₁ x₂ first second =>
    cases b with
    | binary g y₁ y₂ =>
      rw [agrees_binary, agrees_binary]
      have guards : f.agrees g = g.agrees f := by
        rw [Bool.eq_iff_iff, Binary.agrees_iff, Binary.agrees_iff, eq_comm]
      refine both_swap (by rw [guards]) fun holds => ?_
      -- The operations agree here, so both sides compare their operands in one order.
      have same : g.normal = f.normal :=
        (Binary.agrees_iff g f).mp (by simpa [Except.toOption] using holds)
      rw [Binary.secondFirst_of_normal same]
      split
      · exact both_swap (second y₂) fun _ => first y₁
      · exact both_swap (first y₁) fun _ => second y₂
    | _ => exact different_swap (Nat.ne_of_beq_eq_false rfl)
  | localizedText x₁ x₂ x₃ first second third =>
    cases b with
    | localizedText y₁ y₂ y₃ =>
      rw [agrees_localizedText, agrees_localizedText]
      exact both_swap (first y₁) fun _ => both_swap (second y₂) fun _ => third y₃
    | _ => exact different_swap (Nat.ne_of_beq_eq_false rfl)
  | variadic f xs ih =>
    cases b with
    | variadic g ys =>
      rw [agrees_variadic, agrees_variadic]
      refine both_swap ?_ fun _ => agreeAll_swap xs ys ih
      simp [Variadic.agrees, eq_comm, Bool.beq_comm]
    | _ => exact different_swap (Nat.ne_of_beq_eq_false rfl)
  | led f x xs first ih =>
    cases b with
    | led g y ys =>
      rw [agrees_led, agrees_led]
      refine both_swap (by simp [Led.agrees, eq_comm]) fun _ => both_swap (first y) fun _ => ?_
      exact both_swap (by simp [Bool.beq_comm]) fun _ => agreeAll_swap xs ys ih
    | _ => exact different_swap (Nat.ne_of_beq_eq_false rfl)
  | switch o x xs x' first ih last =>
    cases b with
    | switch o' y ys y' =>
      rw [agrees_switch, agrees_switch]
      refine both_swap (first y) fun _ => both_swap (by simp [Bool.beq_comm]) fun _ => ?_
      exact both_swap (agreeCases_swap xs ys ih) fun _ => last y'
    | _ => exact different_swap (Nat.ne_of_beq_eq_false rfl)

private theorem agreeAll_decides (xs ys : List (Expr String))
    (decides : ∀ x ∈ xs, ∀ y ∈ ys, (x.agrees y).toOption.isSome) :
    (agreeAll xs ys).toOption.isSome := by
  induction xs generalizing ys with
  | nil => cases ys <;> rfl
  | cons x xs ih =>
    cases ys with
    | nil => rfl
    | cons y ys =>
      rw [agreeAll]
      exact both_decides (decides x (by simp) y (by simp)) (ih ys fun x xMember y yMember =>
        decides x (List.mem_cons_of_mem _ xMember) y (List.mem_cons_of_mem _ yMember))

private theorem agreeCases_decides (xs ys : List (SwitchCase (Expr String)))
    (decides : ∀ c ∈ xs, ∀ d ∈ ys, (c.value.agrees d.value).toOption.isSome ∧
      (c.result.agrees d.result).toOption.isSome) : (agreeCases xs ys).toOption.isSome := by
  induction xs generalizing ys with
  | nil => cases ys <;> rfl
  | cons x xs ih =>
    cases ys with
    | nil => rfl
    | cons y ys =>
      obtain ⟨value, result⟩ := decides x (by simp) y (by simp)
      rw [agreeCases]
      exact both_decides value (both_decides result (ih ys fun c cMember d dMember =>
        decides c (List.mem_cons_of_mem _ cMember) d (List.mem_cons_of_mem _ dMember)))

private theorem different_decides {a b : Expr String} (aKnown : a.known = true)
    (bKnown : b.known = true) (different : a.ctorIdx ≠ b.ctorIdx) :
    (a.agrees b).toOption.isSome := by
  rw [agrees_other (unknown?_of_known aKnown) (unknown?_of_known bKnown) different]
  rfl

/-- Known expressions are always told apart or found equal. -/
theorem agrees_decides (a b : Expr String) (aKnown : a.known = true) (bKnown : b.known = true) :
    (a.agrees b).toOption.isSome := by
  induction a generalizing b with
  | atom f =>
    cases b with
    | atom g => rw [agrees_atom aKnown bKnown]; rfl
    | _ => exact different_decides aKnown bKnown (Nat.ne_of_beq_eq_false rfl)
  | unary f x ih =>
    cases b with
    | unary g y =>
      rw [agrees_unary]
      exact both_decides rfl (ih y aKnown bKnown)
    | _ => exact different_decides aKnown bKnown (Nat.ne_of_beq_eq_false rfl)
  | binary f x₁ x₂ first second =>
    cases b with
    | binary g y₁ y₂ =>
      simp only [Expr.known, Bool.and_eq_true] at aKnown bKnown
      have firstDecides := first y₁ aKnown.1 bKnown.1
      have secondDecides := second y₂ aKnown.2 bKnown.2
      rw [agrees_binary]
      refine both_decides rfl ?_
      split
      · exact both_decides secondDecides firstDecides
      · exact both_decides firstDecides secondDecides
    | _ => exact different_decides aKnown bKnown (Nat.ne_of_beq_eq_false rfl)
  | localizedText x₁ x₂ x₃ first second third =>
    cases b with
    | localizedText y₁ y₂ y₃ =>
      simp only [Expr.known, Bool.and_eq_true] at aKnown bKnown
      rw [agrees_localizedText]
      exact both_decides (first y₁ aKnown.1.1 bKnown.1.1)
        (both_decides (second y₂ aKnown.1.2 bKnown.1.2) (third y₃ aKnown.2 bKnown.2))
    | _ => exact different_decides aKnown bKnown (Nat.ne_of_beq_eq_false rfl)
  | variadic f xs ih =>
    cases b with
    | variadic g ys =>
      simp only [Expr.known, knownAll_iff] at aKnown bKnown
      rw [agrees_variadic]
      exact both_decides rfl (agreeAll_decides xs ys fun x xMember y yMember =>
        ih x xMember y (aKnown x xMember) (bKnown y yMember))
    | _ => exact different_decides aKnown bKnown (Nat.ne_of_beq_eq_false rfl)
  | led f x xs first ih =>
    cases b with
    | led g y ys =>
      simp only [Expr.known, Bool.and_eq_true, knownAll_iff] at aKnown bKnown
      rw [agrees_led]
      refine both_decides rfl (both_decides (first y aKnown.1 bKnown.1) (both_decides rfl ?_))
      exact agreeAll_decides xs ys fun x xMember y yMember =>
        ih x xMember y (aKnown.2 x xMember) (bKnown.2 y yMember)
    | _ => exact different_decides aKnown bKnown (Nat.ne_of_beq_eq_false rfl)
  | switch o x xs x' first ih last =>
    cases b with
    | switch o' y ys y' =>
      simp only [Expr.known, Bool.and_eq_true, knownCases_iff] at aKnown bKnown
      rw [agrees_switch]
      refine both_decides (first y aKnown.1.1 bKnown.1.1) (both_decides rfl (both_decides ?_
        (last y' aKnown.2 bKnown.2)))
      refine agreeCases_decides xs ys fun c cMember d dMember => ?_
      obtain ⟨cValue, cResult⟩ := aKnown.1.2 c cMember
      obtain ⟨dValue, dResult⟩ := bKnown.1.2 d dMember
      exact ⟨(ih c cMember).1 d.value cValue dValue, (ih c cMember).2 d.result cResult dResult⟩
    | _ => exact different_decides aKnown bKnown (Nat.ne_of_beq_eq_false rfl)

/-! ### An expression and itself -/

private theorem both_ne_false {first : Except ModelGap Bool} {second : Unit → Except ModelGap Bool}
    (firstHolds : first ≠ .ok false) (secondHolds : second () ≠ .ok false) :
    both first second ≠ .ok false := by
  rcases first with gap | _ | _
  · simp [both]
  · exact absurd rfl firstHolds
  · exact secondHolds

private theorem agreeAll_self (xs : List (Expr String))
    (each : ∀ x ∈ xs, x.agrees x ≠ .ok false) : agreeAll xs xs ≠ .ok false := by
  induction xs with
  | nil => simp [agreeAll]
  | cons x xs ih =>
    rw [agreeAll]
    apply both_ne_false
    · exact each x (by simp)
    · exact ih fun x member => each x (List.mem_cons_of_mem _ member)

private theorem agreeCases_self (xs : List (SwitchCase (Expr String)))
    (each : ∀ c ∈ xs, c.value.agrees c.value ≠ .ok false ∧ c.result.agrees c.result ≠ .ok false) :
    agreeCases xs xs ≠ .ok false := by
  induction xs with
  | nil => simp [agreeCases]
  | cons c xs ih =>
    obtain ⟨value, result⟩ := each c (by simp)
    rw [agreeCases]
    apply both_ne_false value
    apply both_ne_false result
    exact ih fun c member => each c (List.mem_cons_of_mem _ member)

/-- An expression is never found to differ from itself; the comparison can only fail. -/
theorem agrees_self (e : Expr String) : e.agrees e ≠ .ok false := by
  induction e with
  | atom f =>
    by_cases known : f.known = true
    · rw [agrees_atom known known]
      simp [Atom.agrees]
    · intro differs
      have fails := show ((Expr.atom f).agrees (.atom f)).toOption = none from
        agrees_unknown (.inl (unknown?_of_not_known known))
      rw [differs] at fails
      cases fails
  | unary f x ih =>
    rw [agrees_unary]
    apply both_ne_false
    · simp [Unary.agrees]
    · exact ih
  | binary f x₁ x₂ first second =>
    rw [agrees_binary]
    apply both_ne_false
    · simp [(Binary.agrees_iff f f).mpr rfl]
    · split
      · exact both_ne_false second first
      · exact both_ne_false first second
  | localizedText x₁ x₂ x₃ first second third =>
    rw [agrees_localizedText]
    exact both_ne_false first (both_ne_false second third)
  | variadic f xs ih =>
    rw [agrees_variadic]
    apply both_ne_false
    · simp [Variadic.agrees]
    · exact agreeAll_self xs ih
  | led f x xs first ih =>
    rw [agrees_led]
    apply both_ne_false
    · simp [Led.agrees]
    · apply both_ne_false first
      apply both_ne_false
      · simp
      · exact agreeAll_self xs ih
  | switch o x xs x' first ih last =>
    rw [agrees_switch]
    apply both_ne_false first
    apply both_ne_false
    · simp
    · exact both_ne_false (agreeCases_self xs ih) last

/-- Comparing an expression that is not known with itself fails. -/
theorem agrees_self_fails {e : Expr String} (unknown : e.known = false) :
    ∃ gap, e.agrees e = .error gap := by
  cases compared : e.agrees e with
  | error gap => exact ⟨gap, rfl⟩
  | ok equal =>
    cases equal with
    | false => exact absurd compared (agrees_self e)
    | true =>
      obtain ⟨known, _⟩ := (agrees_true_iff e e).mp compared
      rw [unknown] at known
      cases known

/-! ### Structural equality under symbols -/

/-- Structural equality is equality of normal forms. It holds exactly between known expressions
whose normal forms are the same, decides whenever both are known, and does not depend on the order
of the two, failures included; on known expressions it is therefore an equivalence. -/
theorem structurallyEqual_normal_forms (symbols : Symbols) :
    (∀ a b, structurallyEqual symbols a b = .ok true ↔
      a.known = true ∧ b.known = true ∧ symbols.normal a = symbols.normal b) ∧
    (∀ a b, a.known = true → b.known = true → ∃ v, structurallyEqual symbols a b = .ok v) ∧
    (∀ a b v, structurallyEqual symbols a b = .ok v ↔ structurallyEqual symbols b a = .ok v) ∧
    (∀ a, a.known = true → structurallyEqual symbols a a = .ok true) ∧
    (∀ a b, structurallyEqual symbols a b = .ok true → structurallyEqual symbols b a = .ok true) ∧
    (∀ a b c, structurallyEqual symbols a b = .ok true → structurallyEqual symbols b c = .ok true →
      structurallyEqual symbols a c = .ok true) := by
  have exact (a b : Expr SymbolRef) : structurallyEqual symbols a b = .ok true ↔
      a.known = true ∧ b.known = true ∧ symbols.normal a = symbols.normal b := by
    simpa [structurallyEqual, Symbols.normal] using agrees_true_iff (symbols.resolve a) (symbols.resolve b)
  have swap (a b : Expr SymbolRef) (v : Bool) :
      structurallyEqual symbols a b = .ok v ↔ structurallyEqual symbols b a = .ok v := by
    have same := agrees_swap (symbols.resolve a) (symbols.resolve b)
    rw [structurallyEqual, structurallyEqual, ← toOption_eq_some, same, toOption_eq_some]
  refine ⟨exact, ?_, swap, ?_, fun a b => (swap a b true).mp, ?_⟩
  · intro a b aKnown bKnown
    have decides := agrees_decides (symbols.resolve a) (symbols.resolve b) (by simpa) (by simpa)
    obtain ⟨v, decided⟩ := Option.isSome_iff_exists.mp decides
    exact ⟨v, toOption_eq_some.mp decided⟩
  · intro a known
    exact (exact a a).mpr ⟨known, known, rfl⟩
  · intro a b c first second
    obtain ⟨aKnown, _, ab⟩ := (exact a b).mp first
    obtain ⟨_, cKnown, bc⟩ := (exact b c).mp second
    exact (exact a c).mpr ⟨aKnown, cKnown, ab.trans bc⟩

/-- Two accesses to one member, through different indices and with different bookkeeping. -/
theorem structurallyEqual_other_bookkeeping :
    let symbols : Symbols := ⟨fun _ => "Actor.Health", fun _ => "Actor"⟩
    let access (skip : UInt32) (index : SymbolRef) : Expr SymbolRef :=
      .binary (.context .plain skip index) (.atom (.marker .selfObject))
        (.atom (.readVariable .instanceMember index))
    (access 3 7).known = true ∧ structurallyEqual symbols (access 3 7) (access 9 (-2)) = .ok true ∧
      ∃ v, structurallyEqual symbols (access 3 7) (.atom (.marker .true)) = .ok v := by
  intro symbols access
  have law := structurallyEqual_normal_forms symbols
  exact ⟨rfl, (law.1 _ _).mpr ⟨rfl, rfl, rfl⟩, law.2.1 _ _ rfl rfl⟩

end ScriptFlow
