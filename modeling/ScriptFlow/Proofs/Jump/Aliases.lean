import ScriptFlow.Graph.JumpTable
import ScriptFlow.Proofs.Collection.OrderedMap

/-! Aliases of folded offsets. The table stores no chain: whatever was merged, one step leads to the
end. What the table says is therefore measured against the pairs that were merged into it: the
offset that stands in for another is the end of the chain of pairs from it, and a pair is refused
when it would close a chain into a cycle. -/
namespace ScriptFlow.JumpTable

variable {table after : JumpTable} {source target : Nat}

/-- No alias leads to another one. -/
def Flat (table : JumpTable) : Prop :=
  ∀ x y, table.aliases.get? x = some y → table.aliases.get? y = none

/-! ### Flat tables -/

private theorem follow_of_none {x : Nat} (free : table.aliases.get? x = none) (steps : Nat) :
    table.follow steps x = x := by
  cases steps with
  | zero => rfl
  | succ steps => simp [follow, free]

theorem canonical_of_flat (flat : table.Flat) (x : Nat) :
    table.canonical x = (table.aliases.get? x).getD x := by
  unfold canonical follow
  cases found : table.aliases.get? x with
  | none => rfl
  | some y => exact follow_of_none (flat x y found) _

/-- What stands in for an offset is no alias itself. -/
theorem canonical_free (flat : table.Flat) (x : Nat) :
    table.aliases.get? (table.canonical x) = none := by
  rw [canonical_of_flat flat]
  cases found : table.aliases.get? x with
  | none => exact found
  | some y => exact flat x y found

theorem canonical_of_free (flat : table.Flat) {x : Nat} (free : table.aliases.get? x = none) :
    table.canonical x = x := by
  rw [canonical_of_flat flat, free]
  rfl

theorem canonical_canonical (flat : table.Flat) (x : Nat) :
    table.canonical (table.canonical x) = table.canonical x :=
  canonical_of_free flat (canonical_free flat x)

/-- A chain of a flat table visits its start and its end, and nothing else. -/
theorem reaches_iff (flat : table.Flat) (x goal : Nat) :
    table.reaches x goal = true ↔ x = goal ∨ table.canonical x = goal := by
  rw [canonical_of_flat flat]
  unfold reaches visits
  by_cases same : x = goal
  · simp [same]
  · cases found : table.aliases.get? x with
    | none => simp [same]
    | some y =>
      have positive : 0 < table.aliasCount := by
        unfold aliasCount
        rw [List.length_pos_iff]
        intro empty
        simp [OrderedMap.get?, empty] at found
      obtain ⟨steps, count⟩ := Nat.exists_eq_add_of_lt positive
      have free := flat x y found
      simp only [same, ↓reduceIte, false_or, Option.getD_some, count, Nat.zero_add, visits, free]
      by_cases here : y = goal <;> simp [here]

/-! ### Registering -/

@[simp] theorem register_obligations (table : JumpTable) (node : NodeId) (pin : String)
    (target : Nat) : (table.register node pin target).obligations =
      table.obligations ++ [⟨node, pin, table.canonical target⟩] := rfl

@[simp] theorem canonical_register (table : JumpTable) (node : NodeId) (pin : String)
    (target x : Nat) : (table.register node pin target).canonical x = table.canonical x := by
  have follows (steps x : Nat) :
      (table.register node pin target).follow steps x = table.follow steps x := by
    induction steps generalizing x with
    | zero => rfl
    | succ steps ih => simp only [follow, register, ← ih]
  exact follows _ x

/-! ### Merging -/

/-- A pair is refused exactly when its target leads back to its source. -/
theorem merge?_eq_none (flat : table.Flat) :
    table.merge? source target = none ↔ target = source ∨ table.canonical target = source := by
  rw [← reaches_iff flat]
  unfold merge?
  by_cases refused : table.reaches target source <;> simp [refused]

/-- What a merge does: every alias that led to the source now leads to the end of the chain from
the target, and so does the source. -/
theorem merge?_aliases (merged : table.merge? source target = some after) (x : Nat) :
    after.aliases.get? x = if x = source then some (table.canonical target)
      else (table.aliases.get? x).map (redirect source (table.canonical target)) := by
  unfold merge? at merged
  split at merged
  · cases merged
  · cases merged
    rw [OrderedMap.get?_insert, OrderedMap.get?_mapValues]

theorem merge?_obligations (merged : table.merge? source target = some after) :
    after.obligations = table.obligations.map fun o =>
      { o with target := redirect source (table.canonical target) o.target } := by
  unfold merge? at merged
  split at merged <;> cases merged
  rfl

/-- What stands in for a merged source is another offset. -/
theorem canonical_ne_of_merged (flat : table.Flat)
    (merged : table.merge? source target = some after) : table.canonical target ≠ source := by
  intro same
  rw [(merge?_eq_none flat).mpr (.inr same)] at merged
  cases merged

/-- Tables stay flat, also when a source is merged again. -/
theorem flat_merge (flat : table.Flat) (merged : table.merge? source target = some after) :
    after.Flat := by
  have elsewhere := canonical_ne_of_merged flat merged
  intro x y found
  rw [merge?_aliases merged] at found ⊢
  have free : y ≠ source ∧ table.aliases.get? y = none := by
    split at found
    · cases found
      exact ⟨elsewhere, canonical_free flat target⟩
    · obtain ⟨old, oldFound, rfl⟩ := Option.map_eq_some_iff.mp found
      unfold redirect
      split
      · exact ⟨elsewhere, canonical_free flat target⟩
      · exact ⟨by assumption, flat x old oldFound⟩
  simp [free.1, free.2]

/-- Merging a new source redirects whatever ended there. -/
theorem canonical_merge (flat : table.Flat) (merged : table.merge? source target = some after)
    (fresh : table.aliases.get? source = none) (x : Nat) :
    after.canonical x = redirect source (table.canonical target) (table.canonical x) := by
  rw [canonical_of_flat (flat_merge flat merged), canonical_of_flat flat x, merge?_aliases merged]
  by_cases same : x = source
  · simp [same, fresh, redirect]
  · cases found : table.aliases.get? x <;> simp [same, redirect]

/-! ### Chains of merged pairs -/

/-- Following merged pairs from an offset ends at another. -/
inductive Arrives (pairs : List (Nat × Nat)) : Nat → Nat → Prop
  | stay {x : Nat} (ends : ∀ y, (x, y) ∉ pairs) : Arrives pairs x x
  | step {x y z : Nat} (pair : (x, y) ∈ pairs) (rest : Arrives pairs y z) : Arrives pairs x z

theorem Arrives.eq_of_free {pairs : List (Nat × Nat)} {x z : Nat} (arrives : Arrives pairs x z)
    (free : ∀ y, (x, y) ∉ pairs) : z = x := by
  cases arrives with
  | stay ends => rfl
  | step pair rest => exact absurd pair (free _)

/-- A chain that does not end at the source of a further pair is the same with it. -/
theorem Arrives.keep {pairs : List (Nat × Nat)} {x z : Nat} (arrives : Arrives pairs x z)
    (elsewhere : z ≠ source) : Arrives (pairs ++ [(source, target)]) x z := by
  induction arrives with
  | stay ends => exact .stay (by simp [ends, elsewhere])
  | step pair rest ih => exact .step (List.mem_append_left _ pair) (ih elsewhere)

/-- With a further pair, the chains that ended at its source go on from its target. -/
theorem Arrives.append {pairs : List (Nat × Nat)} {x z last : Nat} (arrives : Arrives pairs x z)
    (onwards : Arrives (pairs ++ [(source, target)]) target last) :
    Arrives (pairs ++ [(source, target)]) x (redirect source last z) := by
  induction arrives with
  | @stay x ends =>
    by_cases same : x = source
    · subst same
      simpa [redirect] using Arrives.step (by simp) onwards
    · simp only [redirect, same, ↓reduceIte]
      exact .stay (by simp [ends, same])
  | step pair rest ih => exact .step (List.mem_append_left _ pair) ih

/-- The table has merged exactly the given pairs, and owes the given jumps, each to the end of the
chain from its target. -/
structure Accounts (pairs : List (Nat × Nat)) (owed : List Obligation) (table : JumpTable) :
    Prop where
  flat : table.Flat
  free : ∀ x, table.aliases.get? x = none ↔ ∀ y, (x, y) ∉ pairs
  ends : ∀ x, Arrives pairs x (table.canonical x)
  obligations : table.obligations =
    owed.map fun o => { o with target := table.canonical o.target }

namespace Accounts

variable {pairs : List (Nat × Nat)} {owed : List Obligation}

theorem empty : Accounts [] [] {} where
  flat x y found := by simp at found
  free x := by simp
  ends x := .stay (by simp)
  obligations := rfl

theorem register (accounts : Accounts pairs owed table) (node : NodeId) (pin : String)
    (target : Nat) : Accounts pairs (owed ++ [⟨node, pin, target⟩]) (table.register node pin target) where
  flat := accounts.flat
  free := accounts.free
  ends x := by simpa using accounts.ends x
  obligations := by
    simp [JumpTable.register_obligations, accounts.obligations]

/-- A pair with a new source that is not refused becomes part of the chains. -/
theorem merge (accounts : Accounts pairs owed table) (fresh : ∀ y, (source, y) ∉ pairs)
    (merged : table.merge? source target = some after) :
    Accounts (pairs ++ [(source, target)]) owed after := by
  have flat := accounts.flat
  have unused : table.aliases.get? source = none := (accounts.free source).mpr fresh
  have canonical := canonical_merge flat merged unused
  -- The chain from the target does not pass the source, so the new pair leaves it alone.
  have onwards : Arrives (pairs ++ [(source, target)]) target (table.canonical target) :=
    (accounts.ends target).keep (canonical_ne_of_merged flat merged)
  refine ⟨flat_merge flat merged, fun x => ?_, fun x => ?_, ?_⟩
  · rw [merge?_aliases merged]
    by_cases same : x = source
    · subst same
      exact iff_of_false (by simp) fun absent => absent target (by simp)
    · simp [same, accounts.free]
  · rw [canonical]
    exact (accounts.ends x).append onwards
  · rw [merge?_obligations merged, accounts.obligations, List.map_map]
    refine List.map_congr_left fun o _ => ?_
    simp [canonical]

end Accounts

end ScriptFlow.JumpTable
