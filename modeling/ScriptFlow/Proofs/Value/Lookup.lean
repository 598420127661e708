import ScriptFlow.Graph.Build
import ScriptFlow.Proofs.Expr.Bookkeeping

/-! Looking an operand up. The table is searched from its start, so that entries at its end matter
only to operands that are not found before them, and a comparison that fails on the way ends the
search. Of an operand the search reads its normal form only. -/
namespace ScriptFlow

variable {operand seen : Expr String} {values : List (Expr String × NodeId)} {id : NodeId}

theorem findValue_append (operand : Expr String) (first second : List (Expr String × NodeId)) :
    findValue operand (first ++ second) =
      match findValue operand first with
      | .ok none => findValue operand second
      | found => found := by
  induction first with
  | nil => rfl
  | cons entry rest ih =>
    obtain ⟨seen, id⟩ := entry
    rw [List.cons_append, findValue, findValue]
    by_cases tokens : seen.tokenName = operand.tokenName
    · rw [if_pos tokens, if_pos tokens]
      rcases seen.agrees operand with gap | _ | _
      · rfl
      · exact ih
      · rfl
    · rw [if_neg tokens, if_neg tokens]
      exact ih

/-- An equal operand at the start of a table is found. -/
theorem findValue_head (equal : seen.agrees operand = .ok true) :
    findValue operand ((seen, id) :: values) = .ok (some id) := by
  obtain ⟨_, _, normal⟩ := (agrees_true_iff _ _).mp equal
  have tokens : seen.tokenName = operand.tokenName := by
    rw [← normal_tokenName, normal, normal_tokenName]
  rw [findValue, if_pos tokens, equal]

/-- What is found for an operand is the node of an equal one, and nothing before it stood in the
way. -/
theorem findValue_split (found : findValue operand values = .ok (some id)) :
    ∃ before seen after, values = before ++ (seen, id) :: after ∧
      findValue operand before = .ok none ∧ seen.agrees operand = .ok true := by
  induction values with
  | nil => cases found
  | cons entry rest ih =>
    obtain ⟨first, other⟩ := entry
    have later (skipped : ∀ before, findValue operand ((first, other) :: before) =
        findValue operand before) :
        ∃ before seen after, (first, other) :: rest = before ++ (seen, id) :: after ∧
          findValue operand before = .ok none ∧ seen.agrees operand = .ok true := by
      rw [skipped] at found
      obtain ⟨before, seen, after, rfl, none, equal⟩ := ih found
      exact ⟨(first, other) :: before, seen, after, rfl, (skipped before).trans none, equal⟩
    by_cases tokens : first.tokenName = operand.tokenName
    · rcases compared : first.agrees operand with gap | _ | _
      · rw [findValue, if_pos tokens, compared] at found
        cases found
      · refine later ?_
        intro before
        rw [findValue, if_pos tokens, compared]
      · rw [findValue_head compared] at found
        cases found
        exact ⟨[], first, rest, rfl, rfl, compared⟩
    · refine later ?_
      intro before
      rw [findValue, if_neg tokens]

/-- A search that fails fails at an entry of the table. -/
theorem findValue_error {gap : ModelGap} (failed : findValue operand values = .error gap) :
    ∃ seen id, (seen, id) ∈ values ∧ seen.agrees operand = .error gap := by
  induction values with
  | nil => cases failed
  | cons entry rest ih =>
    obtain ⟨first, other⟩ := entry
    have later (failed : findValue operand rest = .error gap) :
        ∃ seen id, (seen, id) ∈ (first, other) :: rest ∧ seen.agrees operand = .error gap := by
      obtain ⟨seen, id, member, compared⟩ := ih failed
      exact ⟨seen, id, List.mem_cons_of_mem _ member, compared⟩
    rw [findValue] at failed
    by_cases tokens : first.tokenName = operand.tokenName
    · rw [if_pos tokens] at failed
      rcases compared : first.agrees operand with other_gap | _ | _
      · rw [compared] at failed
        cases failed
        exact ⟨first, other, List.mem_cons_self .., compared⟩
      · rw [compared] at failed
        exact later failed
      · rw [compared] at failed
        cases failed
    · rw [if_neg tokens] at failed
      exact later failed

theorem findValue_normal (operand : Expr String) (values : List (Expr String × NodeId)) :
    findValue operand.normal (values.map fun entry => (entry.1.normal, entry.2)) =
      findValue operand values := by
  induction values with
  | nil => rfl
  | cons entry rest ih =>
    simp only [List.map_cons, findValue, normal_tokenName, agrees_normal, ih]

end ScriptFlow
