import Mathlib.Data.List.Induction
import Mathlib.Logic.Relation
import ScriptFlow.Proofs.Jump.Aliases

/-! Calls on a jump table, in any order. The table does not store the pairs it accepted: it redirects
what is queued and compresses what it remembers. A run of calls is therefore compared with the plain
list of accepted pairs. As long as no accepted source is merged again, the table is what that list
says, so the order in which jumps were registered between the merges leaves no trace. -/
namespace ScriptFlow.JumpTable

/-- A call on a table. -/
inductive Call where
  /-- An output is to be connected to the node at an offset. -/
  | register (jump : Obligation)
  /-- An offset is to stand in for another. -/
  | merge (source target : Nat)

/-- A table with the pairs that it accepted, in order. -/
structure Log where
  table : JumpTable := {}
  accepted : List (Nat × Nat) := []

/-- The table after one more call; a refused merge leaves everything as it was. -/
def Log.step (log : Log) : Call → Log
  | .register jump => { log with table := log.table.register jump.source jump.pin jump.target }
  | .merge source target =>
    match log.table.merge? source target with
    | some table => ⟨table, log.accepted ++ [(source, target)]⟩
    | none => log

/-- The table after calls on an empty one. -/
def run (calls : List Call) : Log := calls.foldl Log.step {}

/-- The jumps that were registered, each with the target that the call was given. -/
def registered (calls : List Call) : List Obligation :=
  calls.filterMap fun
    | .register jump => some jump
    | .merge .. => none

/-- No merge has a source that an earlier call had accepted. -/
def Fresh (calls : List Call) : Prop :=
  ∀ i source target, calls[i]? = some (.merge source target) →
    source ∉ (run (calls.take i)).accepted.map (·.1)

/-- One offset leads to another by an accepted pair. -/
def Leads (pairs : List (Nat × Nat)) (x y : Nat) : Prop := (x, y) ∈ pairs

/-! ### Chains of pairs -/

section Chains

variable {pairs pairs' : List (Nat × Nat)} {x y z : Nat}

/-- No offset is the source of two pairs. -/
def Functional (pairs : List (Nat × Nat)) : Prop :=
  ∀ x y z, (x, y) ∈ pairs → (x, z) ∈ pairs → y = z

theorem Arrives.reaches (arrives : Arrives pairs x z) : Relation.ReflTransGen (Leads pairs) x z := by
  induction arrives with
  | stay ends => exact .refl
  | step pair rest ih => exact .head pair ih

theorem Arrives.ends (arrives : Arrives pairs x z) : ∀ y, (z, y) ∉ pairs := by
  induction arrives with
  | stay ends => exact ends
  | step pair rest ih => exact ih

/-- A way that cannot go on is the whole chain. -/
theorem arrives_of_reaches (reaches : Relation.ReflTransGen (Leads pairs) x z)
    (ends : ∀ y, (z, y) ∉ pairs) : Arrives pairs x z := by
  induction reaches using Relation.ReflTransGen.head_induction_on with
  | refl => exact .stay ends
  | head pair rest ih => exact .step pair ih

theorem Arrives.unique (functional : Functional pairs) (first : Arrives pairs x y)
    (second : Arrives pairs x z) : y = z := by
  induction first with
  | stay ends => exact (second.eq_of_free ends).symm
  | @step x middle y pair rest ih =>
    cases second with
    | stay ends => exact absurd pair (ends middle)
    | step pair' rest' =>
      have same := functional x _ _ pair pair'
      subst same
      exact ih rest'

/-- A chain that ends is not part of a cycle. -/
theorem Arrives.acyclic (functional : Functional pairs) (arrives : Arrives pairs x z) :
    ¬ Relation.TransGen (Leads pairs) x x := by
  induction arrives with
  | stay ends =>
    intro cycle
    obtain ⟨y, pair, _⟩ := Relation.TransGen.head'_iff.mp cycle
    exact ends y pair
  | @step x y z pair rest ih =>
    -- The cycle leaves `x` by its only pair, so it can be entered at `y` as well.
    intro cycle
    obtain ⟨y', pair', back⟩ := Relation.TransGen.head'_iff.mp cycle
    have same := functional x _ _ pair pair'
    subst same
    exact ih (Relation.TransGen.tail' back pair)

/-- Chains depend on the set of pairs only. -/
theorem Arrives.congr (same : ∀ pair, pair ∈ pairs ↔ pair ∈ pairs') (arrives : Arrives pairs x z) :
    Arrives pairs' x z := by
  induction arrives with
  | stay ends => exact .stay fun y pair => ends y ((same _).mpr pair)
  | step pair rest ih => exact .step ((same _).mp pair) ih

end Chains

/-! ### Runs -/

/-- What a run of calls keeps: the table accounts for the accepted pairs and the registered jumps,
and no source was accepted twice. -/
structure Log.Sound (log : Log) (jumps : List Obligation) : Prop where
  accounts : log.table.Accounts log.accepted jumps
  functional : Functional log.accepted

namespace Log.Sound

variable {log : Log} {jumps : List Obligation}

theorem register (sound : log.Sound jumps) (jump : Obligation) :
    (log.step (.register jump)).Sound (jumps ++ [jump]) where
  accounts := sound.accounts.register jump.source jump.pin jump.target
  functional := sound.functional

theorem merge (sound : log.Sound jumps) {source : Nat} (target : Nat)
    (fresh : ∀ y, (source, y) ∉ log.accepted) : (log.step (.merge source target)).Sound jumps := by
  cases merged : log.table.merge? source target with
  | none => simpa only [Log.step, merged] using sound
  | some table =>
    simp only [Log.step, merged]
    refine ⟨sound.accounts.merge fresh merged, ?_⟩
    intro x y z first second
    simp only [List.mem_append, List.mem_singleton, Prod.mk.injEq] at first second
    rcases first with first | ⟨rfl, rfl⟩
    · rcases second with second | ⟨rfl, rfl⟩
      · exact sound.functional x y z first second
      · exact absurd first (fresh y)
    · rcases second with second | ⟨_, rfl⟩
      · exact absurd second (fresh z)
      · rfl

/-- The table leads every offset to the end of its chain. -/
theorem arrives_iff (sound : log.Sound jumps) (x z : Nat) :
    Arrives log.accepted x z ↔ log.table.canonical x = z := by
  have ends := sound.accounts.ends x
  constructor
  · intro arrives
    exact ends.unique sound.functional arrives
  · rintro rfl
    exact ends

/-- A merge is refused exactly when its target leads back to its source. -/
theorem refused_iff (sound : log.Sound jumps) {source : Nat} (target : Nat)
    (fresh : ∀ y, (source, y) ∉ log.accepted) :
    log.table.merge? source target = none ↔
      Relation.ReflTransGen (Leads log.accepted) target source := by
  rw [merge?_eq_none sound.accounts.flat]
  constructor
  · rintro (rfl | back)
    · exact .refl
    · have arrives := (sound.arrives_iff target source).mpr back
      exact arrives.reaches
  · intro reaches
    have arrives := arrives_of_reaches reaches fresh
    exact .inr ((sound.arrives_iff target source).mp arrives)

end Log.Sound

theorem run_append (calls : List Call) (call : Call) :
    run (calls ++ [call]) = (run calls).step call := by
  simp [run]

theorem Fresh.unaccepted {calls : List Call} (fresh : Fresh calls) {i source target : Nat}
    (found : calls[i]? = some (.merge source target)) (y : Nat) :
    (source, y) ∉ (run (calls.take i)).accepted := by
  intro accepted
  exact fresh i source target found (List.mem_map.mpr ⟨_, accepted, rfl⟩)

theorem Fresh.init {calls : List Call} {call : Call} (fresh : Fresh (calls ++ [call])) :
    Fresh calls := by
  intro i source target found
  have inside : i < calls.length := (List.getElem?_eq_some_iff.mp found).choose
  have earlier := fresh i source target (by rwa [List.getElem?_append_left inside])
  rwa [List.take_append_of_le_length (Nat.le_of_lt inside)] at earlier

theorem Fresh.take {calls : List Call} (fresh : Fresh calls) (n : Nat) : Fresh (calls.take n) := by
  intro i source target found
  have inside : i < n := by
    have bound := (List.getElem?_eq_some_iff.mp found).choose
    rw [List.length_take] at bound
    omega
  rw [List.getElem?_take_of_lt inside] at found
  rw [List.take_take, Nat.min_eq_left (Nat.le_of_lt inside)]
  exact fresh i source target found

/-- Every run whose merges are fresh is sound. -/
theorem run_sound {calls : List Call} (fresh : Fresh calls) :
    (run calls).Sound (registered calls) := by
  induction calls using List.reverseRecOn with
  | nil => exact ⟨.empty, fun x y z pair => by cases pair⟩
  | append_singleton calls call ih =>
    have sound := ih fresh.init
    rw [run_append]
    cases call with
    | register jump => simpa [registered] using sound.register jump
    | merge source target =>
      have last : (calls ++ [.merge source target])[calls.length]? =
          some (.merge source target) := by simp
      have unused := fresh.unaccepted last
      rw [List.take_left] at unused
      simpa [registered] using sound.merge target unused

/-- The order of calls does not matter beyond what they register and what is accepted. In every run
whose merges are fresh the accepted pairs form a partial function without cycles; a merge is refused
exactly when the accepted pairs lead from its target to its source; the table leads each offset to
the end of its chain, and the queued jumps are the registered ones in order, each bound for the end
of the chain from its target. Another such run with the same jumps and the same set of accepted pairs
ends with the same queue and leads every offset to the same end. -/
theorem run_determined_by_pairs (calls : List Call) (fresh : Fresh calls) :
    Functional (run calls).accepted ∧
    (∀ x, ¬ Relation.TransGen (Leads (run calls).accepted) x x) ∧
    (∀ i source target, calls[i]? = some (.merge source target) →
      ((run (calls.take i)).table.merge? source target = none ↔
        Relation.ReflTransGen (Leads (run (calls.take i)).accepted) target source)) ∧
    (∀ x z, Arrives (run calls).accepted x z ↔ (run calls).table.canonical x = z) ∧
    List.Forall₂ (fun jump queued : Obligation => queued.source = jump.source ∧
        queued.pin = jump.pin ∧ Arrives (run calls).accepted jump.target queued.target)
      (registered calls) (run calls).table.obligations ∧
    ∀ calls', Fresh calls' → registered calls' = registered calls →
      (∀ pair, pair ∈ (run calls').accepted ↔ pair ∈ (run calls).accepted) →
      (run calls').table.obligations = (run calls).table.obligations ∧
        ∀ x, (run calls').table.canonical x = (run calls).table.canonical x := by
  have sound := run_sound fresh
  refine ⟨sound.functional, fun x => (sound.accounts.ends x).acyclic sound.functional, ?_,
    sound.arrives_iff, ?_, ?_⟩
  · intro i source target found
    exact (run_sound (fresh.take i)).refused_iff target (fresh.unaccepted found)
  · rw [sound.accounts.obligations, List.forall₂_map_right_iff]
    exact List.forall₂_same.mpr fun jump _ => ⟨rfl, rfl, sound.accounts.ends jump.target⟩
  · intro calls' fresh' jumps pairs
    have sound' := run_sound fresh'
    have ends (x : Nat) : (run calls').table.canonical x = (run calls).table.canonical x := by
      have arrives := (sound.accounts.ends x).congr fun pair => (pairs pair).symm
      exact (sound'.arrives_iff x _).mp arrives
    refine ⟨?_, ends⟩
    rw [sound'.accounts.obligations, sound.accounts.obligations, jumps]
    exact List.map_congr_left fun jump _ => by rw [ends]

/-- A jump queued between two merges, the second of which extends the chain of the first, and the
same calls with the jump at the front and the merges the other way round. -/
theorem run_determined_by_pairs_chain :
    let jump : Obligation := ⟨0, "then", 3⟩
    let calls : List Call := [.merge 3 5, .register jump, .merge 5 9, .merge 9 3]
    let other : List Call := [.register jump, .merge 5 9, .merge 3 5]
    Fresh calls ∧ Fresh other ∧ registered other = registered calls ∧
      (run (calls.take 3)).table.merge? 9 3 = none ∧
      Relation.ReflTransGen (Leads (run (calls.take 3)).accepted) 3 9 ∧
      (run other).table.obligations = (run calls).table.obligations ∧
      (run calls).table.obligations = [⟨0, "then", 9⟩] := by
  intro jump calls other
  have fresh : Fresh calls := by
    intro i source target found
    rcases i with _ | _ | _ | _ | i <;> cases found <;> decide
  have freshOther : Fresh other := by
    intro i source target found
    rcases i with _ | _ | _ | i <;> cases found <;> decide
  obtain ⟨_, _, refused, _, _, same⟩ := run_determined_by_pairs calls fresh
  have loop : (run (calls.take 3)).table.merge? 9 3 = none := by rfl
  have pairs : ∀ pair, pair ∈ (run other).accepted ↔ pair ∈ (run calls).accepted := by
    intro pair
    have first : (run other).accepted = [(5, 9), (3, 5)] := rfl
    have second : (run calls).accepted = [(3, 5), (5, 9)] := rfl
    rw [first, second]
    simp [or_comm]
  exact ⟨fresh, freshOther, rfl, loop, (refused 3 9 3 rfl).mp loop,
    (same other freshOther rfl pairs).1, rfl⟩

end ScriptFlow.JumpTable
