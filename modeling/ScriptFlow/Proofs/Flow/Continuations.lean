import ScriptFlow.Proofs.Flow.Parts

/-! Where execution goes from an instruction, said by its operation alone: which outputs it has and
the offset at which each continues. The parts of the node of an instruction give it exactly these
outputs; a context access that is merged into its member falls through, whatever the member does
at its own `then`. -/
namespace ScriptFlow

/-- The output at which a latent call resumes, if it says where. -/
def resumption (settings : DecodeSettings) (function : String) (arguments : List (Expr String)) :
    List (String × Nat) :=
  if settings.isLatent function then ((resumeOffset? arguments).map ("later", ·)).toList else []

/-- The outputs of an operation by itself, each with the offset at which it continues when `next` is
the next instruction. -/
def Expr.outputs (settings : DecodeSettings) (next : Nat) : Expr String → List (String × Nat)
  | .atom (.marker .endOfScript) | .atom (.marker .popFlow) => []
  | .unary (.wrap .returnValue) _ | .unary (.wrap .computedJump) _ => []
  | .atom (.jump target) => [(thenPin, target.toNat)]
  | .atom (.pushFlow address) => [("first", next), (thenPin, address.toNat)]
  | .unary (.jumpIfNot target) _ => [("true", next), ("false", target.toNat)]
  | .variadic (.call _ target) arguments =>
    (thenPin, next) :: resumption settings (shortName target) arguments
  | .variadic (.virtualCall _ name) arguments =>
    (thenPin, next) :: resumption settings name arguments
  | _ => [(thenPin, next)]

/-- The outputs of an instruction, each with the offset at which it continues. A merged context
access falls through at the `then` that it shares with its member. -/
def Expr.continuations (settings : DecodeSettings) (next : Nat) (e : Expr String) :
    List (String × Nat) :=
  match settings.mode, e.context? with
  | .pseudoBlueprint, some (_, member) =>
    (thenPin, next) :: (member.outputs settings next).filter (·.1 ≠ thenPin)
  | _, _ => e.outputs settings next

/-! ### Reading outputs off the parts -/

/-- Parts without outputs add none. -/
theorem foldl_flowsWith_silent {α : Type} {next : Nat} {part : α → ExecPart}
    (silent : ∀ a, (part a).flow? next = none) (items : List α) (flows : List (String × Nat)) :
    (items.map part).foldl (flowsWith next) flows = flows := by
  induction items with
  | nil => rfl
  | cons a rest ih =>
    have first : flowsWith next flows (part a) = flows := by
      unfold flowsWith
      rw [silent]
    rw [List.map_cons, List.foldl_cons, first]
    exact ih

/-- What is there already goes before the outputs of further parts, and wins. -/
private theorem foldl_flowsWith (next : Nat) (flows : List (String × Nat)) (parts : List ExecPart) :
    parts.foldl (flowsWith next) flows =
      flows ++ (flowsOf next parts).filter (·.1 ∉ flows.map (·.1)) := by
  induction parts using List.reverseRecOn with
  | nil => simp [flowsOf]
  | append_singleton parts part ih =>
    rw [List.foldl_append, List.foldl_cons, List.foldl_nil, ih, flowsOf_append]
    unfold flowsWith
    cases part.flow? next with
    | none => rfl
    | some flow =>
      by_cases taken : flow.1 ∈ flows.map (·.1)
      · by_cases later : flow.1 ∈ (flowsOf next parts).map (·.1) <;> simp_all
      · by_cases later : flow.1 ∈ (flowsOf next parts).map (·.1) <;> simp_all

private theorem flowsOf_call (settings : DecodeSettings) (title function : String)
    (arguments : List (Expr String)) (next : Nat) :
    flowsOf next (ExecShape.sequential title (callParts settings function arguments)).parts =
      (thenPin, next) :: resumption settings function arguments := by
  have start : flowsOf next
      (ExecShape.sequential title (callParts settings function arguments)).parts =
        (callParts settings function arguments).foldl (flowsWith next) [(thenPin, next)] := rfl
  rw [start]
  unfold callParts resumption
  by_cases latent : settings.isLatent function = true
  · rw [if_pos latent, if_pos latent]
    cases resumeOffset? arguments with
    | none =>
      dsimp only
      rw [List.foldl_append, foldl_flowsWith_silent fun _ => rfl]
      rfl
    | some offset =>
      dsimp only
      rw [List.foldl_append, foldl_flowsWith_silent fun _ => rfl]
      rfl
  · rw [if_neg latent, if_neg latent]
    exact foldl_flowsWith_silent (fun _ => rfl) arguments.zipIdx _

theorem flowsOf_execShape (settings : DecodeSettings) (e : Expr String) (next : Nat) :
    flowsOf next (e.execShape settings).parts = e.outputs settings next := by
  cases e with
  | atom op =>
    cases op with
    | marker m => cases m <;> rfl
    | _ => rfl
  | unary op a =>
    cases op with
    | wrap w => cases w <;> rfl
    | _ => rfl
  | binary op a b => cases op <;> rfl
  | localizedText source key space => rfl
  | variadic op operands =>
    cases op with
    | call kind target => exact flowsOf_call settings _ _ operands next
    | virtualCall kind name => exact flowsOf_call settings _ _ operands next
    | _ => rfl
  | led op leader operands =>
    cases op with
    | assignContainer kind =>
      exact foldl_flowsWith_silent (fun _ => rfl) operands.zipIdx [(thenPin, next)]
    | callDelegate target => rfl
  | switch endOffset index cases default => rfl

/-- An instruction node has the outputs of its instruction. -/
theorem flowsOf_execParts (settings : DecodeSettings) (e : Expr String) (next : Nat) :
    flowsOf next (e.execParts settings) = e.continuations settings next := by
  unfold Expr.execParts Expr.continuations Expr.shown
  cases settings.mode with
  | plain => exact flowsOf_execShape settings e next
  | pseudoBlueprint =>
    cases e.context? with
    | none => exact flowsOf_execShape settings e next
    | some access =>
      obtain ⟨object, member⟩ := access
      have merged := foldl_flowsWith next [(thenPin, next)] (member.execShape settings).parts
      simp only [flowsOf_execShape, List.map_cons, List.map_nil, List.mem_singleton,
        List.singleton_append] at merged
      exact merged

/-! ### The names of outputs -/

/-- The names that outputs have. -/
def outputNames : List String := [thenPin, "first", "true", "false", "later"]

private theorem outputs_named (settings : DecodeSettings) (e : Expr String) (next : Nat)
    {flow : String × Nat} (member : flow ∈ e.outputs settings next) : flow.1 ∈ outputNames := by
  have resumed {function : String} {arguments : List (Expr String)}
      (member : flow ∈ (thenPin, next) :: resumption settings function arguments) :
      flow.1 ∈ outputNames := by
    unfold resumption at member
    rcases List.mem_cons.mp member with rfl | member
    · simp [outputNames]
    · split at member
      · obtain ⟨offset, _, rfl⟩ := Option.map_eq_some_iff.mp (Option.mem_toList.mp member)
        simp [outputNames]
      · cases member
  unfold Expr.outputs at member
  split at member
  case h_1 | h_2 | h_3 | h_4 => cases member
  case h_5 | h_10 =>
    rw [List.mem_singleton.mp member]
    simp [outputNames]
  case h_6 | h_7 =>
    simp only [List.mem_cons, List.not_mem_nil, or_false] at member
    rcases member with rfl | rfl <;> simp [outputNames]
  case h_8 | h_9 => exact resumed member

/-- Outputs have names from a short list. -/
theorem continuations_named {settings : DecodeSettings} {e : Expr String} {next : Nat}
    {flow : String × Nat} (member : flow ∈ e.continuations settings next) :
    flow.1 ∈ outputNames := by
  unfold Expr.continuations at member
  split at member
  · rcases List.mem_cons.mp member with rfl | member
    · simp [outputNames]
    · exact outputs_named settings _ next (List.mem_of_mem_filter member)
  · exact outputs_named settings e next member

end ScriptFlow
