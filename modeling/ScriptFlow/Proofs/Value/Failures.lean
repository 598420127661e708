import ScriptFlow.Proofs.Value.Layers
import ScriptFlow.Proofs.Value.Sharing

/-! What a failed call leaves behind. An operand is entered before its parts are placed and stays
when one of them fails, and a text is entered whatever it is made of; from then on it is compared
with others. A call for a known operand fails exactly when one of its look-ups among the operands
that earlier calls left does: what the call itself enters is known, and it cannot be met again below
itself. A node once returned for a known operand is returned for it ever after, because entries are
only added behind those that the look-up went through. -/
namespace ScriptFlow

/-! ### Look-ups that fail -/

mutual

/-- The first failure among the look-ups that placing a tree over a table needs; a tree that is found
needs no more than its own. -/
def ValueTree.clash (values : List (Expr String × NodeId)) : ValueTree → Option ModelGap
  | .gap opcode => some ⟨opcode⟩
  | .node operand ⟨_, _, parts⟩ =>
    match findValue operand values with
    | .error gap => some gap
    | .ok (some _) => none
    | .ok none => partsClash values parts

/-- The first failure among the look-ups for the parts of a node. -/
def partsClash (values : List (Expr String × NodeId)) :
    List (ValuePart ValueTree) → Option ModelGap
  | [] => none
  | .operand _ tree :: rest =>
    match tree.clash values with
    | some gap => some gap
    | none => partsClash values rest
  | .note _ :: rest => partsClash values rest
  | .variableRead _ :: rest => partsClash values rest
  | .gap opcode :: _ => some ⟨opcode⟩

end

variable {mode : GraphMode} {old : List (Expr String × NodeId)} {e e' : Expr String}
  {gap : ModelGap}

private theorem clash_normal (values : List (Expr String × NodeId)) (tree : ValueTree) :
    tree.normal.clash (values.map fun entry => (entry.1.normal, entry.2)) = tree.clash values := by
  induction tree with
  | gap opcode => rfl
  | node operand title token parts ih =>
    have same : partsClash (values.map fun entry => (entry.1.normal, entry.2)) (normalParts parts) =
        partsClash values parts := by
      induction parts with
      | nil => rfl
      | cons part rest rest_ih =>
        have later := rest_ih fun pin tree member => ih pin tree (List.mem_cons_of_mem _ member)
        cases part with
        | operand pin tree =>
          rw [normalParts, partsClash, partsClash, ih pin tree (List.mem_cons_self ..), later]
        | gap opcode => rfl
        | _ => simpa only [normalParts, partsClash] using later
    rw [ValueTree.normal, ValueTree.clash, ValueTree.clash, findValue_normal, same]

/-- Operands with one normal form meet the same failure. -/
private theorem clash_congr (same : e.normal = e'.normal) (values : List (Expr String × NodeId)) :
    (e.valueTree mode).clash values = (e'.valueTree mode).clash values := by
  rw [← clash_normal values (e.valueTree mode), ← clash_normal values (e'.valueTree mode),
    valueTree_normal, valueTree_normal, same]

private theorem fed_of_partsClash {parts : List (ValuePart ValueTree)}
    (whole : ∀ opcode, ValuePart.gap opcode ∉ parts) (clashes : partsClash old parts = some gap) :
    ∃ pin tree, ValuePart.operand pin tree ∈ parts ∧ tree.clash old = some gap := by
  induction parts with
  | nil => cases clashes
  | cons part rest ih =>
    have later (clashes : partsClash old rest = some gap) :
        ∃ pin tree, ValuePart.operand pin tree ∈ part :: rest ∧ tree.clash old = some gap := by
      obtain ⟨pin, tree, member, clashes⟩ :=
        ih (fun opcode member => whole opcode (List.mem_cons_of_mem _ member)) clashes
      exact ⟨pin, tree, List.mem_cons_of_mem _ member, clashes⟩
    cases part with
    | operand pin tree =>
      rw [partsClash] at clashes
      cases first : tree.clash old with
      | some failure =>
        rw [first] at clashes
        exact ⟨pin, tree, by simp, first.trans clashes⟩
      | none =>
        rw [first] at clashes
        exact later clashes
    | note line => exact later clashes
    | variableRead name => exact later clashes
    | gap opcode => exact absurd (List.mem_cons_self ..) (whole opcode)

/-- A failure for a known operand comes from a comparison of an operand that it is made of with one
that the table holds. -/
private theorem clash_of_known (tree : ValueTree) (known : e.known = true)
    (own : e.valueTree mode = tree)
    (clashes : tree.clash old = some gap) :
    ∃ part seen id, part.known = true ∧ tree.Reaches part ∧ (seen, id) ∈ old ∧
      seen.agrees part = .error gap := by
  induction tree generalizing e with
  | gap opcode =>
    obtain ⟨shape, tree, _⟩ := valueTree_of_known mode known
    rw [own] at tree
    cases tree
  | node operand title token parts ih =>
    obtain ⟨shape, tree, sound⟩ := valueTree_of_known mode known
    rw [own] at tree
    cases tree
    rw [ValueTree.clash] at clashes
    rcases found : findValue operand old with failure | _ | id
    · rw [found] at clashes
      cases clashes
      obtain ⟨seen, id, member, compared⟩ := findValue_error found
      exact ⟨operand, seen, id, known, .own, member, compared⟩
    · rw [found] at clashes
      obtain ⟨pin, tree, member, clashes⟩ := fed_of_partsClash sound.whole clashes
      obtain ⟨feeding, feedingKnown, same⟩ := sound.fed pin tree member
      obtain ⟨part, seen, id, partKnown, reached, entry, compared⟩ :=
        ih pin tree member feedingKnown same.symm clashes
      exact ⟨part, seen, id, partKnown, .input member reached, entry, compared⟩
    · rw [found] at clashes
      cases clashes

/-! ### Placing over leftovers -/

/-- An entry that is known and meets no failure over the table that was there before it. -/
def Quiet (mode : GraphMode) (old : List (Expr String × NodeId)) (entry : Expr String × NodeId) :
    Prop :=
  entry.1.known = true ∧ (entry.1.valueTree mode).clash old = none

/-- The entries behind `old` are quiet, or stand for known operands at least as deep as said, whose
placing is still going on. -/
def Extends (mode : GraphMode) (old : List (Expr String × NodeId)) (depth : Nat)
    (values : List (Expr String × NodeId)) : Prop :=
  ∃ added, values = old ++ added ∧ ∀ entry ∈ added, Quiet mode old entry ∨
    entry.1.known = true ∧ depth ≤ entry.1.depth mode

section Extends

variable {depth : Nat} {values added : List (Expr String × NodeId)}

theorem Extends.append (holds : Extends mode old depth values)
    (quiet : ∀ entry ∈ added, Quiet mode old entry) : Extends mode old depth (values ++ added) := by
  obtain ⟨before, rfl, each⟩ := holds
  refine ⟨before ++ added, by rw [List.append_assoc], ?_⟩
  intro entry member
  rcases List.mem_append.mp member with earlier | latest
  · exact each entry earlier
  · exact .inl (quiet entry latest)

theorem Extends.lower (holds : Extends mode old depth values) {shallow : Nat}
    (le : shallow ≤ depth) : Extends mode old shallow values := by
  obtain ⟨added, split, each⟩ := holds
  refine ⟨added, split, ?_⟩
  intro entry member
  exact (each entry member).imp_right fun busy => ⟨busy.1, Nat.le_trans le busy.2⟩

/-- The operand that is entered next may be as deep as said itself. -/
theorem Extends.opened (holds : Extends mode old depth values) (known : e.known = true)
    (deep : depth ≤ e.depth mode) (id : NodeId) : Extends mode old depth (values ++ [(e, id)]) := by
  obtain ⟨added, rfl, each⟩ := holds
  refine ⟨added ++ [(e, id)], List.append_assoc .., ?_⟩
  intro entry member
  rcases List.mem_append.mp member with earlier | latest
  · exact each entry earlier
  · rw [List.mem_singleton.mp latest]
    exact .inr ⟨known, deep⟩

/-- An operand that is met again behind `old` has been placed, without failures: what is still being
placed is deeper. -/
private theorem clash_of_met (each : ∀ entry ∈ added, Quiet mode old entry ∨
      entry.1.known = true ∧ e.depth mode < entry.1.depth mode) {seen : Expr String} {id : NodeId}
    (met : (seen, id) ∈ added) (same : seen.normal = e.normal) :
    (e.valueTree mode).clash old = none := by
  rw [← clash_congr same]
  rcases each _ met with quiet | ⟨_, deeper⟩
  · exact quiet.2
  · exact absurd (depth_congr same) (Nat.ne_of_gt deeper)

end Extends

/-- What placing a tree comes to, over any table that extends `old`: it fails with the failure that
the tree meets over `old`, if there is one, and otherwise succeeds and adds quiet entries. -/
def PlacesOver (mode : GraphMode) (old : List (Expr String × NodeId)) (tree : ValueTree) : Prop :=
  ∀ b : Build, Extends mode old (tree.depth + 1) b.values →
    (∀ gap, tree.clash old = some gap → (tree.place b).1 = .error gap) ∧
    (tree.clash old = none → ∃ id added, (tree.place b).1 = .ok id ∧
      (tree.place b).2.values = b.values ++ added ∧ ∀ entry ∈ added, Quiet mode old entry)

private theorem placeParts_over {id : NodeId} {depth : Nat} {parts : List (ValuePart ValueTree)}
    (whole : ∀ opcode, ValuePart.gap opcode ∉ parts)
    (feeds : ∀ pin tree, ValuePart.operand pin tree ∈ parts →
      PlacesOver mode old tree ∧ tree.depth < depth)
    {b : Build} (holds : Extends mode old depth b.values) :
    (∀ gap, partsClash old parts = some gap → (placeParts id parts b).1 = .error gap) ∧
    (partsClash old parts = none → ∃ added, (placeParts id parts b).1 = .ok () ∧
      (placeParts id parts b).2.values = b.values ++ added ∧
      ∀ entry ∈ added, Quiet mode old entry) := by
  induction parts generalizing b with
  | nil =>
    refine ⟨?_, ?_⟩
    · intro gap clashes
      cases clashes
    · intro _
      exact ⟨[], rfl, (List.append_nil _).symm, by simp⟩
  | cons part rest ih =>
    have restWhole := fun opcode member => whole opcode (List.mem_cons_of_mem _ member)
    have restFeeds := fun pin tree member => feeds pin tree (List.mem_cons_of_mem _ member)
    cases part with
    | operand pin tree =>
      obtain ⟨places, small⟩ := feeds pin tree (by simp)
      obtain ⟨fails, succeeds⟩ :=
        places (b.onGraph (·.addPin id pin .input .data)) (holds.lower small)
      rw [partsClash, placeParts]
      rcases placed : tree.place (b.onGraph (·.addPin id pin .input .data)) with ⟨result, after⟩
      rw [placed] at fails succeeds
      cases first : tree.clash old with
      | some failure =>
        obtain rfl := fails failure first
        refine ⟨?_, ?_⟩
        · rintro gap ⟨⟩
          rfl
        · rintro ⟨⟩
      | none =>
        obtain ⟨value, added, returned, entered, quiet⟩ := succeeds first
        cases returned
        have extended := holds.append quiet
        change after.values = b.values ++ added at entered
        rw [← entered] at extended
        obtain ⟨laterFails, laterSucceeds⟩ :=
          @ih restWhole restFeeds (after.onGraph (·.connectData value id pin)) extended
        refine ⟨laterFails, ?_⟩
        intro noClash
        obtain ⟨more, done, enteredLater, quietLater⟩ := laterSucceeds noClash
        refine ⟨added ++ more, done, ?_, ?_⟩
        · rw [← List.append_assoc, ← entered]
          exact enteredLater
        · intro entry member
          exact (List.mem_append.mp member).elim (quiet entry) (quietLater entry)
    | note line => exact @ih restWhole restFeeds (b.onGraph (·.annotate id line)) holds
    | variableRead name =>
      exact @ih restWhole restFeeds (b.onGraph (·.registerVariable name id)) holds
    | gap opcode => exact absurd (List.mem_cons_self ..) (whole opcode)

/-- An operand that the table does not hold is placed by entering it and placing its parts. -/
private theorem place_over_absent {title : Option String} {token : String}
    {parts : List (ValuePart ValueTree)} {b : Build} (known : e.known = true)
    (own : e.valueTree mode = .node e ⟨title, token, parts⟩)
    (missing : findValue e old = .ok none) (absent : findValue e b.values = .ok none)
    (whole : ∀ opcode, ValuePart.gap opcode ∉ parts)
    (feeds : ∀ pin tree, ValuePart.operand pin tree ∈ parts →
      PlacesOver mode old tree ∧ tree.depth < e.depth mode)
    (holds : Extends mode old (e.depth mode) b.values) :
    (∀ gap, partsClash old parts = some gap →
      ((ValueTree.node e ⟨title, token, parts⟩).place b).1 = .error gap) ∧
    (partsClash old parts = none → ∃ id added,
      ((ValueTree.node e ⟨title, token, parts⟩).place b).1 = .ok id ∧
      ((ValueTree.node e ⟨title, token, parts⟩).place b).2.values = b.values ++ added ∧
      ∀ entry ∈ added, Quiet mode old entry) := by
  obtain ⟨fails, succeeds⟩ := @placeParts_over mode old b.graph.nextId _ _ whole feeds
    (b.openValue e) (holds.opened known (Nat.le_refl _) b.graph.nextId)
  rw [ValueTree.place]
  simp only [absent]
  rcases result : placeParts b.graph.nextId parts (b.openValue e) with ⟨outcome, after⟩
  rw [result] at fails succeeds
  refine ⟨?_, ?_⟩
  · intro gap clashes
    obtain rfl := fails gap clashes
    rfl
  · intro noClash
    obtain ⟨more, done, entered, quiet⟩ := succeeds noClash
    cases done
    refine ⟨b.graph.nextId, (e, b.graph.nextId) :: more, rfl, ?_, ?_⟩
    · simp only [Build.closeValue_values]
      rw [entered, openValue_values, List.append_assoc]
      rfl
    · intro entry member
      rcases List.mem_cons.mp member with rfl | later
      · refine ⟨known, ?_⟩
        rw [own, ValueTree.clash, missing]
        exact noClash
      · exact quiet entry later

/-- Entries of the call itself do not decide about it. They are known, so that comparing with them
never fails; and one that is found has been placed already, since whatever is still being placed is
deeper. -/
theorem placesOver_of_known (tree : ValueTree) (known : e.known = true)
    (own : e.valueTree mode = tree) : PlacesOver mode old tree := by
  induction tree generalizing e with
  | gap opcode =>
    obtain ⟨shape, tree, _⟩ := valueTree_of_known mode known
    rw [own] at tree
    cases tree
  | node operand title token parts ih =>
    obtain ⟨shape, tree, sound⟩ := valueTree_of_known mode known
    rw [own] at tree
    cases tree
    have depth : operand.depth mode = (ValueTree.node operand ⟨title, token, parts⟩).depth := by
      rw [Expr.depth, own]
    intro b holds
    rw [← depth] at holds
    have still := holds.lower (Nat.le_succ _)
    obtain ⟨added, split, each⟩ := holds
    -- The table of the call is searched as `old` is, and further only if that finds nothing.
    have looked := findValue_append operand old added
    rw [← split] at looked
    rw [ValueTree.clash]
    rcases missing : findValue operand old with failure | _ | id
    · rw [missing] at looked
      rw [ValueTree.place, looked]
      refine ⟨?_, ?_⟩
      · rintro gap ⟨⟩
        rfl
      · rintro ⟨⟩
    · rw [missing] at looked
      have addedKnown : ∀ seen id, (seen, id) ∈ added → seen.known = true := by
        intro seen id member
        exact (each _ member).elim (·.1) (·.1)
      rcases findValue_of_known known addedKnown with ⟨id, again, seen, met, same⟩ | ⟨absent, _⟩
      · have quiet := clash_of_met each met same
        rw [own, ValueTree.clash, missing] at quiet
        rw [ValueTree.place, looked, again]
        simp only [quiet]
        refine ⟨?_, ?_⟩
        · rintro gap ⟨⟩
        · intro _
          exact ⟨id, [], rfl, (List.append_nil _).symm, by simp⟩
      · refine place_over_absent known own missing (looked.trans absent) sound.whole ?_ still
        intro pin tree member
        obtain ⟨feeding, feedingKnown, same⟩ := sound.fed pin tree member
        exact ⟨ih pin tree member feedingKnown same.symm, depth ▸ depth_lt_of_fed member⟩
    · rw [missing] at looked
      rw [ValueTree.place, looked]
      refine ⟨?_, ?_⟩
      · rintro gap ⟨⟩
      · intro _
        exact ⟨id, [], rfl, (List.append_nil _).symm, by simp⟩

/-- A call for a known operand fails exactly when one of its look-ups over the table that it found
fails, and then with that failure. -/
theorem value_eq_error_iff (b : Build) (known : e.known = true) :
    (b.value mode e).1 = .error gap ↔ (e.valueTree mode).clash b.values = some gap := by
  have start : Extends mode b.values ((e.valueTree mode).depth + 1) b.values :=
    ⟨[], (List.append_nil _).symm, by simp⟩
  obtain ⟨fails, succeeds⟩ := placesOver_of_known (e.valueTree mode) known rfl b start
  refine ⟨?_, fails gap⟩
  intro failed
  cases clashes : (e.valueTree mode).clash b.values with
  | some other =>
    have same := (fails other clashes).symm.trans failed
    cases same
    rfl
  | none =>
    obtain ⟨id, _, returned, _⟩ := succeeds clashes
    cases returned.symm.trans failed

/-! ### What a run has entered -/

/-- Whether or not a tree can be placed to the end, only operands that it is made of are entered. -/
theorem place_reached (tree : ValueTree) (b : Build) :
    ∀ entry ∈ (tree.place b).2.values, entry ∈ b.values ∨ tree.Reaches entry.1 := by
  induction tree generalizing b with
  | gap opcode => exact fun entry => .inl
  | node operand title token parts ih =>
    have own : ∀ entry ∈ (b.openValue operand).values, entry ∈ b.values ∨
        (ValueTree.node operand ⟨title, token, parts⟩).Reaches entry.1 := by
      intro entry member
      rcases List.mem_append.mp member with old | latest
      · exact .inl old
      · rw [List.mem_singleton.mp latest]
        exact .inr .own
    have fed (pin : String) (tree : ValueTree) (member : ValuePart.operand pin tree ∈ parts)
        (c : Build) (before : ∀ entry ∈ c.values, entry ∈ b.values ∨
          (ValueTree.node operand ⟨title, token, parts⟩).Reaches entry.1) :
        ∀ entry ∈ (tree.place c).2.values, entry ∈ b.values ∨
          (ValueTree.node operand ⟨title, token, parts⟩).Reaches entry.1 := by
      intro entry entered
      rcases ih pin tree member c entry entered with earlier | reached
      · exact before entry earlier
      · exact .inr (.input member reached)
    have opened := Build.placeParts_preserves (.of_values (fun values => ∀ entry ∈ values,
      entry ∈ b.values ∨ (ValueTree.node operand ⟨title, token, parts⟩).Reaches entry.1)
        b.graph.nextId) fed own
    rw [ValueTree.place]
    rcases findValue operand b.values with gap | _ | id
    · exact fun entry => .inl
    · dsimp only
      rcases result : placeParts b.graph.nextId parts (b.openValue operand) with ⟨outcome, after⟩
      rw [result] at opened
      cases outcome with
      | error gap => exact opened
      | ok done =>
        simp only [Build.closeValue_values]
        exact opened
    · exact fun entry => .inl

private theorem valueAll_reached (operands : List (Expr String)) (b : Build) :
    ∀ entry ∈ (b.valueAll mode operands).2.values,
      entry ∈ b.values ∨ ReachedFrom mode operands entry.1 := by
  induction operands generalizing b with
  | nil => exact fun entry => .inl
  | cons e rest ih =>
    intro entry member
    rcases ih (b.value mode e).2 entry member with early | ⟨operand, asked, reached⟩
    · refine (place_reached (e.valueTree mode) b entry early).imp_right ?_
      intro reached
      exact ⟨e, List.mem_cons_self .., reached⟩
    · exact .inr ⟨operand, List.mem_cons_of_mem _ asked, reached⟩

/-! ### Calls that are repeated -/

/-- A node that was returned for an operand is that of an equal one, or of the operand itself, and no
entry before it stands in the way. -/
theorem value_split {b : Build} {id : NodeId} (returned : (b.value mode e).1 = .ok id) :
    ∃ before seen after, (b.value mode e).2.values = before ++ (seen, id) :: after ∧
      findValue e before = .ok none ∧ (seen = e ∨ seen.agrees e = .ok true) := by
  unfold Build.value at returned ⊢
  cases own : e.valueTree mode with
  | gap opcode =>
    rw [own] at returned
    cases returned
  | node operand shape =>
    obtain ⟨title, token, parts⟩ := shape
    obtain ⟨rfl, _⟩ := valueTree_fed own
    rw [own, ValueTree.place] at returned
    rw [ValueTree.place]
    rcases found : findValue e b.values with gap | _ | other
    · rw [found] at returned
      cases returned
    · have entered := Build.placeParts_values b.graph.nextId parts (b.openValue e)
      rw [found] at returned
      dsimp only at returned ⊢
      rcases result : placeParts b.graph.nextId parts (b.openValue e) with ⟨outcome, after⟩
      rw [result] at returned entered
      cases outcome with
      | error gap => cases returned
      | ok done =>
        cases returned
        obtain ⟨more, entered⟩ := entered
        refine ⟨b.values, e, more, ?_, found, .inl rfl⟩
        simp only [Build.closeValue_values]
        rw [← entered, openValue_values, List.append_assoc]
        rfl
    · rw [found] at returned
      cases returned
      obtain ⟨before, seen, after, split, absent, equal⟩ := findValue_split found
      exact ⟨before, seen, after, split, absent, .inr equal⟩

/-- Once a node was returned for an operand, the operand is found under it in every longer table, if
it is known; otherwise the search meets its unknown token there. -/
theorem findValue_again {b : Build} {id : NodeId} (returned : (b.value mode e).1 = .ok id)
    {values : List (Expr String × NodeId)} (longer : (b.value mode e).2.values <+: values) :
    (e.known = true → findValue e values = .ok (some id)) ∧
      (e.known = false → ∃ gap, findValue e values = .error gap) := by
  obtain ⟨before, seen, after, split, absent, same⟩ := value_split returned
  obtain ⟨more, rfl⟩ := longer
  rw [split, List.append_assoc, findValue_append, absent]
  refine ⟨?_, ?_⟩
  · intro known
    apply findValue_head
    rcases same with rfl | equal
    · exact (agrees_true_iff seen seen).mpr ⟨known, known, rfl⟩
    · exact equal
  · intro unknown
    rcases same with rfl | equal
    · obtain ⟨gap, fails⟩ := agrees_self_fails unknown
      refine ⟨gap, ?_⟩
      rw [List.cons_append, findValue, if_pos rfl, fails]
    · obtain ⟨_, known, _⟩ := (agrees_true_iff seen e).mp equal
      rw [unknown] at known
      cases known

/-- A call that is repeated returns the same node and changes nothing, if the operand is known;
otherwise it fails. -/
theorem value_again {b later : Build} {id : NodeId} (returned : (b.value mode e).1 = .ok id)
    (longer : (b.value mode e).2.values <+: later.values) :
    (e.known = true → later.value mode e = (.ok id, later)) ∧
      (e.known = false → ∃ gap, later.value mode e = (.error gap, later)) := by
  obtain ⟨finds, fails⟩ := findValue_again returned longer
  unfold Build.value at returned ⊢
  cases own : e.valueTree mode with
  | gap opcode =>
    rw [own] at returned
    cases returned
  | node operand shape =>
    obtain ⟨title, token, parts⟩ := shape
    obtain ⟨rfl, _⟩ := valueTree_fed own
    rw [ValueTree.place]
    refine ⟨?_, ?_⟩
    · intro known
      rw [finds known]
    · intro unknown
      obtain ⟨gap, failed⟩ := fails unknown
      exact ⟨gap, by rw [failed]⟩

/-- What a call of a run returned, it returned at some moment before the end. -/
private theorem valueAll_call {operands : List (Expr String)} {b : Build} {place : Nat}
    {outcome : Except ModelGap NodeId} (asked : operands[place]? = some e)
    (returned : (b.valueAll mode operands).1[place]? = some outcome) :
    ∃ moment : Build, (moment.value mode e).1 = outcome ∧
      (moment.value mode e).2.values <+: (b.valueAll mode operands).2.values := by
  induction operands generalizing b place with
  | nil => cases asked
  | cons first rest ih =>
    cases place with
    | zero =>
      cases asked
      cases returned
      exact ⟨b, rfl, (Build.valueAll_keeps mode rest (b.value mode e).2).values⟩
    | succ place => exact ih asked returned

/-! ### After failures -/

/-- What known operands are made of is known. -/
theorem known_of_reaches {tree : ValueTree} {part : Expr String} (reached : tree.Reaches part)
    (known : e.known = true) (own : e.valueTree mode = tree) : part.known = true := by
  induction reached generalizing e with
  | own =>
    obtain ⟨rfl, _⟩ := valueTree_fed own
    exact known
  | input fed reached ih =>
    obtain ⟨shape, tree, sound⟩ := valueTree_of_known mode known
    rw [own] at tree
    cases tree
    obtain ⟨feeding, feedingKnown, same⟩ := sound.fed _ _ fed
    exact ih feedingKnown same.symm

/-- Calls after failures. Whatever calls went before, a call for a known operand fails exactly when
one of its look-ups over the table that they left fails, and then with that failure. Each failure
comes from comparing an operand that it is made of with one that an earlier call reached and that is
not known, so that there is none if all earlier operands are known. A call that returned a node
returns it again and changes nothing, if the operand is known; otherwise it fails from then on. -/
theorem value_after_failures (symbols : Symbols) (mode : GraphMode)
    (operands : List (Expr SymbolRef)) :
    let run := Build.valueAll mode (operands.map symbols.resolve) {}
    (∀ e : Expr SymbolRef, e.known = true →
      (∀ gap, (run.2.value mode (symbols.resolve e)).1 = .error gap ↔
        ((symbols.resolve e).valueTree mode).clash run.2.values = some gap) ∧
      (∀ gap, (run.2.value mode (symbols.resolve e)).1 = .error gap →
        ∃ part seen, ((symbols.resolve e).valueTree mode).Reaches part ∧
          ReachedFrom mode (operands.map symbols.resolve) seen ∧ seen.known = false ∧
          seen.agrees part = .error gap) ∧
      ((∀ operand ∈ operands, operand.known = true) →
        ∃ id, (run.2.value mode (symbols.resolve e)).1 = .ok id)) ∧
    ∀ (place : Nat) (e : Expr SymbolRef) (id : NodeId),
      operands[place]? = some e → run.1[place]? = some (.ok id) →
      (e.known = true → run.2.value mode (symbols.resolve e) = (.ok id, run.2)) ∧
      (e.known = false → ∃ gap, run.2.value mode (symbols.resolve e) = (.error gap, run.2)) := by
  intro run
  refine ⟨?_, ?_⟩
  · intro e eKnown
    have known : (symbols.resolve e).known = true := by simpa using eKnown
    have comes : ∀ gap, (run.2.value mode (symbols.resolve e)).1 = .error gap →
        ∃ part seen, ((symbols.resolve e).valueTree mode).Reaches part ∧
          ReachedFrom mode (operands.map symbols.resolve) seen ∧ seen.known = false ∧
          seen.agrees part = .error gap := by
      intro gap failed
      obtain ⟨part, seen, id, partKnown, reached, entry, compared⟩ :=
        clash_of_known _ known rfl ((value_eq_error_iff run.2 known).mp failed)
      refine ⟨part, seen, reached, ?_, ?_, compared⟩
      · exact (valueAll_reached (operands.map symbols.resolve) {} _ entry).resolve_left (by simp)
      · rw [Bool.eq_false_iff]
        intro seenKnown
        have decides := agrees_decides seen part seenKnown partKnown
        rw [compared] at decides
        cases decides
    refine ⟨fun gap => value_eq_error_iff run.2 known, comes, ?_⟩
    intro allKnown
    cases called : (run.2.value mode (symbols.resolve e)).1 with
    | ok id => exact ⟨id, rfl⟩
    | error gap =>
      obtain ⟨_, seen, _, ⟨operand, asked, reached⟩, unknown, _⟩ := comes gap called
      obtain ⟨source, member, rfl⟩ := List.mem_map.mp asked
      have sourceKnown : (symbols.resolve source).known = true := by
        simpa using allKnown source member
      rw [known_of_reaches reached sourceKnown rfl] at unknown
      cases unknown
  · intro place e id asked returned
    have resolved : (operands.map symbols.resolve)[place]? = some (symbols.resolve e) := by
      rw [List.getElem?_map, asked]
      rfl
    obtain ⟨moment, called, longer⟩ := valueAll_call resolved returned
    obtain ⟨again, fails⟩ := value_again called longer
    rw [resolve_known] at again fails
    exact ⟨again, fails⟩

/-- A reference that fails at its operand leaves an entry at which an equal-looking one fails; the
operand of the latter is found again, and nothing fails where nothing failed before. -/
theorem value_after_failures_leftover :
    let symbols : Symbols := ⟨fun _ => "Actor.Health", fun _ => "Actor"⟩
    let flag : Expr SymbolRef := .atom (.marker .true)
    let reference (e : Expr SymbolRef) : Expr SymbolRef := .unary (.wrap .softObject) e
    let failed : Expr SymbolRef := reference (.atom (.unknown 0x90))
    let run := Build.valueAll .plain ([failed, flag].map symbols.resolve) {}
    (reference flag).known = true ∧ run.1[1]? = some (.ok 1) ∧
      (run.2.value .plain (symbols.resolve (reference flag))).1 = .error ⟨0x90⟩ ∧
      run.2.value .plain (symbols.resolve flag) = (.ok 1, run.2) ∧
      ∃ id, ((Build.valueAll .plain ([flag].map symbols.resolve) {}).2.value .plain
        (symbols.resolve (reference flag))).1 = .ok id := by
  intro symbols flag reference failed run
  obtain ⟨calls, again⟩ := value_after_failures symbols .plain [failed, flag]
  obtain ⟨fresh, _⟩ := value_after_failures symbols .plain [flag]
  have known : (reference flag).known = true := rfl
  have returned : run.1[1]? = some (.ok 1) := by decide
  refine ⟨known, returned, ?_, (again 1 flag 1 rfl returned).1 rfl, ?_⟩
  · refine ((calls (reference flag) known).1 ⟨0x90⟩).mpr ?_
    decide
  · refine (fresh (reference flag) known).2.2 ?_
    intro operand member
    rw [List.mem_singleton.mp member]
    rfl

/-- A call for a known operand can fail, after one that failed; and a text with an unknown token in it
gets a node by one call and none by the next. -/
theorem failed_value_poisons :
    let symbols : Symbols := ⟨fun _ => "Actor.Health", fun _ => "Actor"⟩
    let reference (e : Expr SymbolRef) : Expr SymbolRef := .unary (.wrap .softObject) e
    let flag : Expr SymbolRef := .atom (.marker .true)
    let text : Expr SymbolRef := .unary (.text .invariant) (.atom (.unknown 0x91))
    (reference flag).known = true ∧
      (Build.valueAll .plain ([reference (.atom (.unknown 0x90)), reference flag, text, text].map
        symbols.resolve) {}).1 = [.error ⟨0x90⟩, .error ⟨0x90⟩, .ok 1, .error ⟨0x91⟩] := by
  decide

end ScriptFlow
