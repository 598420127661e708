import Mathlib.Data.List.Induction
import ScriptFlow.Graph.Build
import ScriptFlow.Proofs.Graph.PinNames

/-! The parts of an instruction: its pins, the outputs with the offsets at which they continue, and
the operands that feed its inputs. Of two parts with one pin the first counts, which is how a merged
context access owns the pins that it shares with its member. -/
namespace ScriptFlow

/-! ### Reading parts -/

/-- The pin that a part asks for. -/
def ExecPart.pin? : ExecPart → Option Pin
  | .enter => some ⟨executePin, .input, .execution⟩
  | .next pin => some ⟨pin, .output, .execution⟩
  | .jump pin _ => some ⟨pin, .output, .execution⟩
  | .input pin _ => some ⟨pin, .input, .data⟩
  | .malformedLatent _ => none

/-- The output of a part, and where it continues when `next` is the next instruction. -/
def ExecPart.flow? (next : Nat) : ExecPart → Option (String × Nat)
  | .next pin => some (pin, next)
  | .jump pin target => some (pin, target)
  | .enter | .input .. | .malformedLatent _ => none

/-- The input of a part, and the operand that feeds it. -/
def ExecPart.supply? : ExecPart → Option (String × Expr String)
  | .input pin operand => some (pin, operand)
  | .enter | .next _ | .jump .. | .malformedLatent _ => none

/-- Whether a pin of that name and direction is there. -/
def hasPin (pins : List Pin) (pin : Pin) : Bool :=
  pins.any fun p => p.name = pin.name ∧ p.direction = pin.direction

/-- The pins with one more at the end, unless one of that name and direction is there. -/
def pinsWith (pins : List Pin) (part : ExecPart) : List Pin :=
  match part.pin? with
  | none => pins
  | some pin => if hasPin pins pin then pins else pins ++ [pin]

/-- The pins of an instruction node. -/
def execPins (parts : List ExecPart) : List Pin := parts.foldl pinsWith []

/-- The outputs with one more at the end, unless it is there. -/
def flowsWith (next : Nat) (flows : List (String × Nat)) (part : ExecPart) : List (String × Nat) :=
  match part.flow? next with
  | none => flows
  | some flow => if flow.1 ∈ flows.map (·.1) then flows else flows ++ [flow]

/-- The outputs of an instruction node, each with the offset at which it continues. -/
def flowsOf (next : Nat) (parts : List ExecPart) : List (String × Nat) :=
  parts.foldl (flowsWith next) []

/-- The inputs of an instruction node, each with the operand that feeds it. -/
def suppliesOf (parts : List ExecPart) : List (String × Expr String) :=
  parts.filterMap ExecPart.supply?

/-- The names of the inputs among parts. -/
def supplyNames (parts : List ExecPart) : List String := (suppliesOf parts).map (·.1)

@[simp] theorem execPins_append (parts : List ExecPart) (part : ExecPart) :
    execPins (parts ++ [part]) = pinsWith (execPins parts) part := by
  simp [execPins]

@[simp] theorem flowsOf_append (next : Nat) (parts : List ExecPart) (part : ExecPart) :
    flowsOf next (parts ++ [part]) = flowsWith next (flowsOf next parts) part := by
  simp [flowsOf]

@[simp] theorem suppliesOf_append (first second : List ExecPart) :
    suppliesOf (first ++ second) = suppliesOf first ++ suppliesOf second := by
  simp [suppliesOf]

@[simp] theorem supplyNames_append (first second : List ExecPart) :
    supplyNames (first ++ second) = supplyNames first ++ supplyNames second := by
  simp [supplyNames]

theorem mem_suppliesOf {parts : List ExecPart} {pin : String} {operand : Expr String} :
    (pin, operand) ∈ suppliesOf parts ↔ ExecPart.input pin operand ∈ parts := by
  induction parts with
  | nil => simp [suppliesOf]
  | cons part rest ih =>
    cases part <;> simp_all [suppliesOf, ExecPart.supply?]

theorem flowsOf_nodup (next : Nat) (parts : List ExecPart) :
    ((flowsOf next parts).map (·.1)).Nodup := by
  induction parts using List.reverseRecOn with
  | nil => simp [flowsOf]
  | append_singleton parts part ih =>
    rw [flowsOf_append, flowsWith]
    split
    · exact ih
    · split
      · exact ih
      · rename_i absent
        rw [List.map_append, List.nodup_append]
        refine ⟨ih, by simp, ?_⟩
        rintro name member _ last rfl
        rw [List.mem_singleton.mp last] at member
        exact absent member

/-! ### The pins of the parts -/

/-- If the outputs among some pins are those of some flows, an output is there exactly when it has a
flow. -/
theorem hasPin_output {pins : List Pin} {flows : List (String × Nat)}
    (outputs : pins.filter (·.direction = .output) =
      flows.map fun flow => ⟨flow.1, .output, .execution⟩) (name : String) :
    hasPin pins ⟨name, .output, .execution⟩ = true ↔ name ∈ flows.map (·.1) := by
  have names : flows.map (·.1) = (pins.filter (·.direction = .output)).map (·.name) := by
    rw [outputs, List.map_map]
    rfl
  rw [names]
  simp [hasPin, and_comm, and_assoc]

/-- The outputs among the pins are those with a continuation. -/
theorem execPins_outputs (next : Nat) (parts : List ExecPart) :
    (execPins parts).filter (·.direction = .output) =
      (flowsOf next parts).map fun flow => ⟨flow.1, .output, .execution⟩ := by
  induction parts using List.reverseRecOn with
  | nil => rfl
  | append_singleton parts part ih =>
    have present := hasPin_output ih
    rw [execPins_append, flowsOf_append]
    have output (pin : String) (target : Nat) :
        (if hasPin (execPins parts) ⟨pin, .output, .execution⟩ then execPins parts
          else execPins parts ++ [⟨pin, .output, .execution⟩]).filter (·.direction = .output) =
        (if pin ∈ (flowsOf next parts).map (·.1) then flowsOf next parts
          else flowsOf next parts ++ [(pin, target)]).map
            fun flow => ⟨flow.1, .output, .execution⟩ := by
      by_cases here : pin ∈ (flowsOf next parts).map (·.1)
      · rw [if_pos here, if_pos ((present pin).mpr here), ih]
      · rw [if_neg here, if_neg (mt (present pin).mp here), List.filter_append, ih]
        simp
    cases part with
    | next pin => exact output pin next
    | jump pin target => exact output pin target
    | malformedLatent function => exact ih
    | enter | input pin operand =>
      simp only [pinsWith, ExecPart.pin?, flowsWith, ExecPart.flow?, ← ih]
      split <;> simp

theorem mem_execPins_output (next : Nat) (parts : List ExecPart) (pin : String) :
    ⟨pin, .output, .execution⟩ ∈ execPins parts ↔ ∃ x, (pin, x) ∈ flowsOf next parts := by
  have filtered : (⟨pin, .output, .execution⟩ : Pin) ∈
      (execPins parts).filter (·.direction = .output) ↔ ⟨pin, .output, .execution⟩ ∈ execPins parts := by
    simp
  rw [← filtered, execPins_outputs next]
  simp

/-- Every pin is asked for by some part. -/
theorem mem_execPins {parts : List ExecPart} {pin : Pin} (member : pin ∈ execPins parts) :
    ∃ part ∈ parts, part.pin? = some pin := by
  induction parts using List.reverseRecOn with
  | nil => cases member
  | append_singleton parts part ih =>
    have earlier (member : pin ∈ execPins parts) :
        ∃ other ∈ parts ++ [part], other.pin? = some pin := by
      obtain ⟨other, otherMember, asks⟩ := ih member
      exact ⟨other, List.mem_append_left _ otherMember, asks⟩
    rw [execPins_append, pinsWith] at member
    split at member
    · exact earlier member
    · rename_i asked asks
      split at member
      · exact earlier member
      · rcases List.mem_append.mp member with member | member
        · exact earlier member
        · exact ⟨part, by simp, by rw [asks, List.mem_singleton.mp member]⟩

/-- The data inputs among the pins are those that are fed, if these have names of their own. -/
theorem execPins_inputs {parts : List ExecPart} (distinct : (supplyNames parts).Nodup)
    (free : executePin ∉ supplyNames parts) :
    (execPins parts).filter (fun pin => pin.direction = .input ∧ pin.kind = .data) =
      (supplyNames parts).map fun name => ⟨name, .input, .data⟩ := by
  induction parts using List.reverseRecOn with
  | nil => rfl
  | append_singleton parts part ih =>
    rw [supplyNames_append] at distinct free ⊢
    rw [List.nodup_append] at distinct
    rw [List.mem_append, not_or] at free
    have before := ih distinct.1 free.1
    rw [execPins_append, List.map_append, ← before]
    cases part with
    | malformedLatent function => simp [pinsWith, ExecPart.pin?, supplyNames, suppliesOf, ExecPart.supply?]
    | enter | next pin | jump pin target =>
      simp only [pinsWith, ExecPart.pin?]
      split <;> simp [supplyNames, suppliesOf, ExecPart.supply?]
    | input pin operand =>
      have absent : ¬ hasPin (execPins parts) ⟨pin, .input, .data⟩ = true := by
        simp only [hasPin, List.any_eq_true, decide_eq_true_eq]
        rintro ⟨other, member, rfl, faces⟩
        obtain ⟨part, partMember, asks⟩ := mem_execPins member
        cases part with
        | enter =>
          cases asks
          exact free.2 (by simp [supplyNames, suppliesOf, ExecPart.supply?])
        | input name value =>
          cases asks
          exact distinct.2.2 name (List.mem_map_of_mem (mem_suppliesOf.mpr partMember)) name
            (by simp [supplyNames, suppliesOf, ExecPart.supply?]) rfl
        | next name | jump name target =>
          cases asks
          cases faces
        | malformedLatent function => cases asks
      simp only [pinsWith, ExecPart.pin?, absent, Bool.false_eq_true, ↓reduceIte]
      simp [supplyNames, suppliesOf, ExecPart.supply?]

/-! ### The parts of known instructions -/

/-- Parts whose inputs are fed by known operands and have names of their own. -/
structure SoundParts (parts : List ExecPart) : Prop where
  known : ∀ pin operand, ExecPart.input pin operand ∈ parts → operand.known = true
  distinct : (supplyNames parts).Nodup
  free : executePin ∉ supplyNames parts

/-- Parts that leave room for the input of an owner. -/
private structure OwnableParts (parts : List ExecPart) : Prop extends SoundParts parts where
  unowned : "owner" ∉ supplyNames parts

private theorem ownable_of_supplies {parts : List ExecPart} (supplies : List (String × Expr String))
    (same : suppliesOf parts = supplies) (known : ∀ supply ∈ supplies, supply.2.known = true)
    (distinct : (supplies.map (·.1)).Nodup) (free : executePin ∉ supplies.map (·.1))
    (unowned : "owner" ∉ supplies.map (·.1)) : OwnableParts parts := by
  subst same
  exact ⟨⟨fun pin operand member => known (pin, operand) (mem_suppliesOf.mpr member), distinct,
    free⟩, unowned⟩

private theorem OwnableParts.sequential {parts : List ExecPart} (ownable : OwnableParts parts)
    (title : String) : OwnableParts (ExecShape.sequential title parts).parts := by
  refine ownable_of_supplies (suppliesOf parts) rfl (fun supply member => ?_) ownable.distinct
    ownable.free ownable.unowned
  exact ownable.known supply.1 supply.2 (mem_suppliesOf.mp member)

/-- Numbered inputs, after one with a name of its own or after none. -/
private theorem ownable_of_numbered {parts : List ExecPart} (first : List (String × Expr String))
    (words : String) (shift : Nat) {operands : List (Expr String)}
    (same : suppliesOf parts = first ++
      operands.zipIdx.map fun (operand, i) => (words ++ natText (i + shift), operand))
    (firstKnown : ∀ supply ∈ first, supply.2.known = true)
    (known : ∀ e ∈ operands, e.known = true) (firstDistinct : (first.map (·.1)).Nodup)
    (apart : ∀ name ∈ executePin :: "owner" :: first.map (·.1), ¬ words.toList <+: name.toList)
    (free : executePin ∉ first.map (·.1)) (unowned : "owner" ∉ first.map (·.1)) :
    OwnableParts parts := by
  have names : (operands.zipIdx.map fun (operand, i) =>
      (words ++ natText (i + shift), operand)).map (·.1) =
      (List.range operands.length).map fun i => words ++ natText (i + shift) := by
    have indices : operands.zipIdx.map (·.2) = List.range operands.length := by
      simp [List.range_eq_range']
    rw [List.map_map, ← indices, List.map_map]
    rfl
  have absent (name : String) (other : ¬ words.toList <+: name.toList) :
      name ∉ (List.range operands.length).map fun i => words ++ natText (i + shift) := by
    intro member
    obtain ⟨i, _, sameName⟩ := List.mem_map.mp member
    exact numberedName_ne other sameName
  refine ownable_of_supplies _ same ?_ ?_ ?_ ?_
  · intro supply member
    rcases List.mem_append.mp member with member | member
    · exact firstKnown supply member
    · obtain ⟨⟨operand, i⟩, indexed, rfl⟩ := List.mem_map.mp member
      exact known operand (List.fst_mem_of_mem_zipIdx indexed)
  · rw [List.map_append, names, List.nodup_append]
    refine ⟨firstDistinct, List.nodup_range.map (numberedName_injective words shift), ?_⟩
    rintro name member _ numbered rfl
    exact absent name (apart name (by simp [member])) numbered
  · rw [List.map_append, names, List.mem_append, not_or]
    exact ⟨free, absent executePin (apart executePin (by simp))⟩
  · rw [List.map_append, names, List.mem_append, not_or]
    exact ⟨unowned, absent "owner" (apart "owner" (by simp))⟩

private theorem suppliesOf_numbered (name : Nat → String) (operands : List (Expr String)) :
    suppliesOf (operands.zipIdx.map fun (operand, i) => .input (name i) operand) =
      operands.zipIdx.map fun (operand, i) => (name i, operand) := by
  rw [suppliesOf, List.filterMap_map]
  exact List.filterMap_eq_map' ▸ rfl

private theorem callParts_ownable (settings : DecodeSettings) (function : String)
    {arguments : List (Expr String)} (known : ∀ e ∈ arguments, e.known = true) :
    OwnableParts (callParts settings function arguments) := by
  refine ownable_of_numbered [] "arg_" 1 ?_ (by simp) known (by simp) (by decide) (by simp)
    (by simp)
  have inputs := suppliesOf_numbered argumentPin arguments
  unfold callParts
  split
  · split
    · rw [suppliesOf_append, inputs]
      simp [suppliesOf, ExecPart.supply?, argumentPin]
    · rw [suppliesOf_append, inputs]
      simp [suppliesOf, ExecPart.supply?, argumentPin]
  · exact inputs

private theorem bare_ownable {parts : List ExecPart} (bare : suppliesOf parts = []) :
    OwnableParts parts :=
  ownable_of_supplies [] bare (by simp) (by simp) (by simp) (by simp)

private theorem single_ownable {parts : List ExecPart} {name : String} {operand : Expr String}
    (same : suppliesOf parts = [(name, operand)]) (known : operand.known = true)
    (free : executePin ≠ name) (unowned : "owner" ≠ name) : OwnableParts parts :=
  ownable_of_supplies _ same (by simpa using known) (by simp) (by simpa using free)
    (by simpa using unowned)

private theorem pair_ownable {parts : List ExecPart} {name name' : String}
    {operand operand' : Expr String}
    (same : suppliesOf parts = [(name, operand), (name', operand')]) (known : operand.known = true)
    (known' : operand'.known = true) (distinct : name ≠ name')
    (free : executePin ∉ [name, name']) (unowned : "owner" ∉ [name, name']) : OwnableParts parts :=
  ownable_of_supplies _ same (by simp [known, known']) (by simpa using distinct) free unowned

private theorem execShape_ownable (settings : DecodeSettings) {e : Expr String}
    (known : e.known = true) : OwnableParts (e.execShape settings).parts := by
  cases e with
  | atom op =>
    cases op with
    | marker m => cases m <;> exact bare_ownable rfl
    | _ => exact bare_ownable rfl
  | unary op a =>
    cases op with
    | wrap w =>
      cases w <;> first
        | exact bare_ownable rfl
        | exact single_ownable rfl known (by decide) (by decide)
    | jumpIfNot target => exact single_ownable rfl known (by decide) (by decide)
    | letPersistent property => exact single_ownable rfl known (by decide) (by decide)
    | _ => exact bare_ownable rfl
  | binary op a b =>
    simp only [Expr.known, Bool.and_eq_true] at known
    cases op with
    | arrayElement | tableText table => exact bare_ownable rfl
    | _ => exact pair_ownable rfl known.1 known.2 (by decide) (by decide) (by decide)
  | localizedText source key space => exact bare_ownable rfl
  | variadic op operands =>
    simp only [Expr.known, knownAll_iff] at known
    cases op with
    | call kind target => exact (callParts_ownable settings _ known).sequential _
    | virtualCall kind name => exact (callParts_ownable settings _ known).sequential _
    | _ => exact bare_ownable rfl
  | led op leader operands =>
    simp only [Expr.known, Bool.and_eq_true, knownAll_iff] at known
    cases op with
    | assignContainer kind =>
      refine OwnableParts.sequential ?_ _
      have elements := suppliesOf_numbered (fun i => "element " ++ natText i) operands
      refine ownable_of_numbered [("variable", leader)] "element " 0
        (by simpa [suppliesOf, ExecPart.supply?] using elements) (by simpa using known.1)
        known.2 (by simp) ?_ (by simp [executePin]) (by simp)
      · exact show ∀ name ∈ [executePin, "owner", "variable"], _ by decide
    | callDelegate target => exact bare_ownable rfl
  | switch endOffset index cases default => exact bare_ownable rfl

/-- The parts of an instruction are those of its shape, unless it is a context access merged into its
member. -/
theorem execParts_cases (settings : DecodeSettings) (e : Expr String) :
    e.execParts settings = (e.execShape settings).parts ∨
      ∃ kind skip field object member, e = .binary (.context kind skip field) object member ∧
        e.execParts settings =
          .enter :: .next thenPin :: .input "owner" object :: (member.execShape settings).parts := by
  unfold Expr.execParts Expr.shown
  cases settings.mode with
  | plain => exact .inl rfl
  | pseudoBlueprint =>
    cases e with
    | binary op object member =>
      cases op with
      | context kind skip field => exact .inr ⟨kind, skip, field, object, member, rfl, rfl⟩
      | _ => exact .inl rfl
    | _ => exact .inl rfl

/-- The parts of a known instruction are sound, also those of a merged context access, which puts the
input of its owner before the inputs of its member. -/
theorem execParts_sound (settings : DecodeSettings) {e : Expr String} (known : e.known = true) :
    SoundParts (e.execParts settings) := by
  rcases execParts_cases settings e with same | ⟨kind, skip, field, object, member, rfl, same⟩
  · rw [same]
    exact (execShape_ownable settings known).toSoundParts
  · simp only [Expr.known, Bool.and_eq_true] at known
    have ownable := execShape_ownable settings known.2
    have names : supplyNames (.enter :: .next thenPin :: .input "owner" object ::
        (member.execShape settings).parts) =
        "owner" :: supplyNames (member.execShape settings).parts := rfl
    rw [same]
    refine ⟨fun pin operand fed => ?_, ?_, ?_⟩
    · simp only [List.mem_cons, reduceCtorEq, ExecPart.input.injEq, false_or] at fed
      rcases fed with ⟨rfl, rfl⟩ | fed
      · exact known.1
      · exact ownable.known pin operand fed
    · rw [names]
      exact List.nodup_cons.mpr ⟨ownable.unowned, ownable.distinct⟩
    · rw [names, List.mem_cons, not_or]
      exact ⟨by decide, ownable.free⟩

/-- Anything but a context access has the parts of its own shape. -/
theorem execParts_of_plain {settings : DecodeSettings} {e : Expr String}
    (plain : e.context? = none) : e.execParts settings = (e.execShape settings).parts := by
  rcases execParts_cases settings e with same | ⟨kind, skip, field, object, member, rfl, _⟩
  · exact same
  · cases plain

/-- An instruction that can be folded away has one output, which continues where the fold leads. -/
theorem flowsOf_folded {settings : DecodeSettings} {offset size target : Nat} {e : Expr String}
    (folded : Build.foldTarget? settings offset size e = some target) (other : DecodeSettings) :
    flowsOf (offset + size) (e.execParts other) = [(thenPin, target)] := by
  unfold Build.foldTarget? at folded
  split at folded
  case h_4 => cases folded
  all_goals
    rw [execParts_of_plain rfl]
    split at folded <;> cases folded
    rfl

/-- Folding is no matter of the parts. -/
theorem execParts_folds (settings : DecodeSettings) (foldTracepoints foldJumps : Bool)
    (e : Expr String) :
    e.execParts { settings with foldTracepoints, foldJumps } = e.execParts settings := by
  rfl

end ScriptFlow
