import ScriptFlow.Proofs.Jump.Interleaving

/-! Runs with any arguments. Even when an offset that stands aside already is merged again, every
alias leads straight to an offset that is none, and so does every queued jump. The bounds on the
number of steps are therefore never what ends a chain, and merging a pair twice in a row is merging
it once. -/
namespace ScriptFlow.JumpTable

variable {table after : JumpTable} {source target : Nat}

/-- One offset stands aside for another. -/
def Alias (table : JumpTable) (x y : Nat) : Prop := table.aliases.get? x = some y

/-- Every queued jump is bound for an offset that is no alias. -/
def Settled (table : JumpTable) : Prop :=
  ∀ o ∈ table.obligations, table.aliases.get? o.target = none

/-! ### Chains of a flat table -/

/-- A chain that starts at no alias goes nowhere. -/
theorem eq_of_chain {x y : Nat} (free : table.aliases.get? x = none)
    (chain : Relation.ReflTransGen table.Alias x y) : y = x := by
  induction chain using Relation.ReflTransGen.head_induction_on with
  | refl => rfl
  | head step rest ih =>
    rw [Alias, free] at step
    cases step

/-- A chain of a flat table ends at what stands in for its start. -/
theorem chain_to_canonical (flat : table.Flat) (x : Nat) :
    Relation.ReflTransGen table.Alias x (table.canonical x) := by
  rw [canonical_of_flat flat]
  cases found : table.aliases.get? x with
  | none => exact .refl
  | some y => exact .single found

/-- The bounded search of a chain finds all that the chain visits. -/
theorem reaches_iff_chain (flat : table.Flat) (x goal : Nat) :
    table.reaches x goal = true ↔ Relation.ReflTransGen table.Alias x goal := by
  rw [reaches_iff flat]
  constructor
  · rintro (rfl | rfl)
    · exact .refl
    · exact chain_to_canonical flat x
  · intro chain
    rcases chain.cases_head with same | ⟨y, step, rest⟩
    · exact .inl same
    · have last := eq_of_chain (flat x y step) rest
      rw [canonical_of_flat flat, step, last]
      exact .inr rfl

/-- Aliases never lead back to where they started. -/
theorem acyclic_of_flat (flat : table.Flat) (x : Nat) : ¬ Relation.TransGen table.Alias x x := by
  intro cycle
  obtain ⟨y, step, back⟩ := Relation.TransGen.head'_iff.mp cycle
  have same := eq_of_chain (flat x y step) back
  have free := flat x y step
  rw [← same, step] at free
  cases free

/-! ### What merging keeps -/

/-- An offset that is no alias is none after a merge either, once it is redirected. -/
private theorem free_redirect (flat : table.Flat) (merged : table.merge? source target = some after)
    {x : Nat} (free : table.aliases.get? x = none) :
    after.aliases.get? (redirect source (table.canonical target) x) = none := by
  have elsewhere := canonical_ne_of_merged flat merged
  rw [merge?_aliases merged]
  by_cases same : x = source
  · simp [redirect, same, elsewhere, canonical_free flat target]
  · simp [redirect, same, free]

private theorem settled_register (flat : table.Flat) (settled : table.Settled) (node : NodeId)
    (pin : String) (target : Nat) : (table.register node pin target).Settled := by
  intro o member
  rw [register_obligations] at member
  rcases List.mem_append.mp member with member | member
  · exact settled o member
  · rw [List.mem_singleton.mp member]
    exact canonical_free flat target

private theorem settled_merge (flat : table.Flat) (settled : table.Settled)
    (merged : table.merge? source target = some after) : after.Settled := by
  intro o member
  rw [merge?_obligations merged] at member
  obtain ⟨old, oldMember, rfl⟩ := List.mem_map.mp member
  exact free_redirect flat merged (settled old oldMember)

/-! ### Merging twice -/

/-- What a merged pair ends at is what it ended at before. -/
theorem canonical_target_merge (flat : table.Flat)
    (merged : table.merge? source target = some after) :
    after.canonical target = table.canonical target := by
  have elsewhere := canonical_ne_of_merged flat merged
  rw [canonical_of_flat (flat_merge flat merged), merge?_aliases merged]
  by_cases same : target = source
  · simp [same]
  · rw [if_neg same]
    rw [canonical_of_flat flat] at elsewhere ⊢
    cases found : table.aliases.get? target with
    | none => rfl
    | some y =>
      rw [found] at elsewhere
      exact if_neg elsewhere

/-- After a merge nothing is left to redirect: neither a queued jump nor an alias leads to the
source. -/
theorem merge?_leaves_no_trace (flat : table.Flat)
    (merged : table.merge? source target = some after) :
    (∀ o ∈ after.obligations, o.target ≠ source) ∧
      ∀ entry ∈ after.aliases.entries, entry.2 ≠ source := by
  have elsewhere := canonical_ne_of_merged flat merged
  have redirected (x : Nat) : redirect source (table.canonical target) x ≠ source := by
    unfold redirect
    by_cases same : x = source
    · simpa [same] using elsewhere
    · simp [same]
  constructor
  · intro o member
    rw [merge?_obligations merged] at member
    obtain ⟨old, _, rfl⟩ := List.mem_map.mp member
    exact redirected old.target
  · intro entry member
    unfold merge? at merged
    split at merged
    · cases merged
    · cases merged
      rcases OrderedMap.mem_insert member with inserted | old
      · rw [inserted]
        exact elsewhere
      · obtain ⟨entry, _, rfl⟩ := List.mem_map.mp old
        exact redirected entry.2

/-- Merging a pair right after it was merged changes nothing. -/
theorem merge?_again (flat : table.Flat) (merged : table.merge? source target = some after) :
    after.merge? source target = some after := by
  have ends := canonical_target_merge flat merged
  have accepted : after.reaches target source = false := by
    rw [Bool.eq_false_iff]
    intro refused
    rcases (reaches_iff (flat_merge flat merged) _ _).mp refused with same | back
    · rw [(merge?_eq_none flat).mpr (.inl same)] at merged
      cases merged
    · exact canonical_ne_of_merged flat merged (ends.symm.trans back)
  obtain ⟨jumpsElsewhere, aliasesElsewhere⟩ := merge?_leaves_no_trace flat merged
  have jumps : after.obligations.map (fun o =>
      { o with target := redirect source (table.canonical target) o.target }) =
        after.obligations := by
    refine (List.map_congr_left fun o member => ?_).trans (List.map_id _)
    simp [redirect, jumpsElsewhere o member]
  have aliases (change : Nat × Nat → Nat × Nat)
      (redirects : ∀ entry, change entry =
        (entry.1, redirect source (table.canonical target) entry.2)) :
      after.aliases.entries.map change = after.aliases.entries := by
    refine (List.map_congr_left fun entry member => ?_).trans (List.map_id _)
    simp [redirects, redirect, aliasesElsewhere entry member]
  have stored : after.aliases.get? source = some (table.canonical target) := by
    rw [merge?_aliases merged, if_pos rfl]
  have kept : after.aliases.insert source (table.canonical target) = after.aliases :=
    after.aliases.insert_of_get? stored
  simp only [merge?, accepted, ends, jumps, Bool.false_eq_true, ↓reduceIte]
  rw [aliases _ fun entry => rfl, kept]

/-! ### Runs -/

/-- Every run leaves a flat table whose queued jumps are settled, whatever it merges. -/
theorem run_flat (calls : List Call) : (run calls).table.Flat ∧ (run calls).table.Settled := by
  induction calls using List.reverseRecOn with
  | nil =>
    constructor
    · intro x y found
      cases found
    · intro o member
      cases member
  | append_singleton calls call ih =>
    obtain ⟨flat, settled⟩ := ih
    rw [run_append]
    cases call with
    | register jump =>
      exact ⟨flat, settled_register flat settled jump.source jump.pin jump.target⟩
    | merge source target =>
      cases merged : (run calls).table.merge? source target with
      | none =>
        simp only [Log.step, merged]
        exact ⟨flat, settled⟩
      | some after =>
        simp only [Log.step, merged]
        exact ⟨flat_merge flat merged, settled_merge flat settled merged⟩

/-- Tables stay flat and free of cycles in every run, whatever the arguments of its calls. No alias
leads to another and no queued jump is bound for one, so that what stands in for an offset has
nothing standing in for it. The bounds cut no chain short: what stands in for an offset is the end of
the chain from it, and a chain is found to visit exactly what it leads to. A merge that is refused
leaves the table as it was, and one that is accepted is accepted again and then changes nothing. -/
theorem run_stays_flat (calls : List Call) :
    let table := (run calls).table
    (∀ x y, table.Alias x y → ∀ z, ¬ table.Alias y z) ∧
    (∀ o ∈ table.obligations, ∀ z, ¬ table.Alias o.target z) ∧
    (∀ x, ¬ Relation.TransGen table.Alias x x) ∧
    (∀ x, table.canonical (table.canonical x) = table.canonical x) ∧
    (∀ x, Relation.ReflTransGen table.Alias x (table.canonical x) ∧
      ∀ z, ¬ table.Alias (table.canonical x) z) ∧
    (∀ x goal, table.reaches x goal = true ↔ Relation.ReflTransGen table.Alias x goal) ∧
    (∀ source target, table.merge? source target = none →
      (run (calls ++ [.merge source target])).table = table) ∧
    ∀ source target after, table.merge? source target = some after →
      after.merge? source target = some after := by
  intro table
  obtain ⟨flat, settled⟩ := run_flat calls
  have unaliased {x : Nat} (free : table.aliases.get? x = none) (z : Nat) : ¬ table.Alias x z := by
    intro leads
    rw [Alias, free] at leads
    cases leads
  refine ⟨fun x y leads => unaliased (flat x y leads), fun o member => unaliased (settled o member),
    acyclic_of_flat flat, canonical_canonical flat,
    fun x => ⟨chain_to_canonical flat x, unaliased (canonical_free flat x)⟩,
    reaches_iff_chain flat, fun source target refused => ?_,
    fun source target after merged => merge?_again flat merged⟩
  rw [run_append]
  simp only [Log.step]
  rw [refused]

/-- An offset that was merged is merged again, into the other end of its chain, with a jump queued
before. The pair that would close a cycle is refused. -/
theorem run_stays_flat_remerged :
    let calls : List Call := [.merge 3 5, .register ⟨0, "then", 3⟩, .merge 5 9, .merge 3 7]
    let table := (run calls).table
    table.merge? 9 5 = none ∧ (run (calls ++ [.merge 9 5])).table = table ∧
      (∃ after, table.merge? 9 7 = some after ∧ after.merge? 9 7 = some after) ∧
      table.Alias 3 7 ∧ ¬ table.Alias 7 9 := by
  intro calls table
  obtain ⟨straight, _, _, _, _, _, refused, again⟩ := run_stays_flat calls
  have loop : table.merge? 9 5 = none := by rfl
  have led : table.Alias 3 7 := by rfl
  exact ⟨loop, refused 9 5 loop, ⟨_, rfl, again 9 7 _ rfl⟩, led, straight 3 7 led 9⟩

end ScriptFlow.JumpTable
