import ScriptFlow.Proofs.Expr.Segments

/-! Offsets partition the stream. An expression of a stream has a path: the position of its
top-level expression, and then at each level which operand to enter. The segments alone say where
the expression at a path starts. A walk visits exactly the paths, in lexicographic order, and hands
out the offsets that the segments give; so the offset table finds each expression under its own
offset and nothing anywhere else. -/
namespace ScriptFlow

variable {ρ : Type}

/-! ### Paths -/

/-- What a path leads to when its first step picks one of several trees. -/
def descend {α β : Type} (look : α → List Nat → Option β) (trees : List α) :
    List Nat → Option β
  | [] => none
  | i :: path => trees[i]?.bind fun tree => look tree path

/-- The items are what the paths lead to, each path once and in lexicographic order, so that a
path comes before those that go on from it. -/
def Enumerates {β : Type} (look : List Nat → Option β) (items : List β) : Prop :=
  ∃ paths : List (List Nat), paths.Pairwise (List.Lex (· < ·)) ∧
    (∀ path, path ∈ paths ↔ (look path).isSome) ∧ paths.map look = items.map some

namespace Enumerates

variable {α β : Type} {look : List Nat → Option β} {items : List β}

theorem mem_iff (enumerates : Enumerates look items) (item : β) :
    item ∈ items ↔ ∃ path, look path = some item := by
  obtain ⟨paths, -, complete, same⟩ := enumerates
  have listed : item ∈ items ↔ some item ∈ paths.map look := by simp [same]
  rw [listed, List.mem_map]
  refine exists_congr fun path => ⟨And.right, fun found => ⟨?_, found⟩⟩
  rw [complete, found]
  rfl

/-- Where no two items share a key, no two paths lead to items that do. -/
theorem path_unique {κ : Type} {key : β → κ} (enumerates : Enumerates look items)
    (distinct : (items.map key).Nodup) {first second : List Nat} {a b : β}
    (foundFirst : look first = some a) (foundSecond : look second = some b)
    (same : key a = key b) : first = second := by
  obtain ⟨paths, -, complete, listed⟩ := enumerates
  have keys : (paths.map fun path => (look path).map key) = items.map (some ∘ key) := by
    have mapped := congrArg (List.map (Option.map key)) listed
    simpa [List.map_map, Function.comp_def] using mapped
  have distinctKeys : (paths.map fun path => (look path).map key).Nodup := by
    rw [keys, ← List.map_map]
    exact distinct.map fun _ _ => Option.some.inj
  refine List.inj_on_of_nodup_map distinctKeys ?_ ?_ ?_
  · rw [complete, foundFirst]
    rfl
  · rw [complete, foundSecond]
    rfl
  · simp [foundFirst, foundSecond, same]

theorem map {γ : Type} (enumerates : Enumerates look items) (change : β → γ) :
    Enumerates (fun path => (look path).map change) (items.map change) := by
  obtain ⟨paths, sorted, complete, same⟩ := enumerates
  refine ⟨paths, sorted, fun path => by rw [complete, Option.isSome_map], ?_⟩
  have changed := congrArg (List.map (Option.map change)) same
  simpa [List.map_map, Function.comp_def] using changed

/-- One step further to the right in the outermost list of trees. -/
private def bump : List Nat → List Nat
  | [] => []
  | i :: path => (i + 1) :: path

private theorem bump_lex {first second : List Nat} (earlier : List.Lex (· < ·) first second) :
    List.Lex (· < ·) (bump first) (bump second) := by
  cases earlier with
  | nil => exact .nil
  | cons earlier => exact .cons earlier
  | rel less => exact .rel (Nat.succ_lt_succ less)

/-- Trees that are enumerated one by one are enumerated one after the other. -/
theorem forest (look : α → List Nat → Option β) (items : α → List β) {trees : List α}
    (each : ∀ tree ∈ trees, Enumerates (look tree) (items tree)) :
    Enumerates (descend look trees) (trees.flatMap items) := by
  induction trees with
  | nil => exact ⟨[], .nil, fun path => by cases path <;> simp [descend], rfl⟩
  | cons tree trees ih =>
    obtain ⟨own, ownSorted, ownComplete, ownSame⟩ := each tree (by simp)
    obtain ⟨later, sorted, complete, same⟩ := ih fun tree member => each tree (by simp [member])
    have bumped (path : List Nat) (member : path ∈ later) :
        descend look (tree :: trees) (bump path) = descend look trees path := by
      cases path with
      | nil => simp [complete, descend] at member
      | cons i path => rfl
    refine ⟨own.map (0 :: ·) ++ later.map bump, ?_, fun path => ?_, ?_⟩
    · refine List.pairwise_append.mpr ⟨?_, ?_, ?_⟩
      · exact List.pairwise_map.mpr (ownSorted.imp .cons)
      · exact List.pairwise_map.mpr (sorted.imp bump_lex)
      · simp only [List.forall_mem_map]
        intro first _ second member
        cases second with
        | nil => simp [complete, descend] at member
        | cons i path => exact .rel (Nat.succ_pos i)
    · rw [List.mem_append, List.mem_map, List.mem_map]
      -- A path is empty, enters the first tree or enters a later one.
      match path with
      | [] =>
        simp only [descend, reduceCtorEq, and_false, exists_false, false_or, Option.isSome_none,
          Bool.false_eq_true, iff_false, not_exists, not_and]
        intro path member empty
        cases path with
        | nil => simp [complete, descend] at member
        | cons i path => cases empty
      | 0 :: path =>
        have notBumped (other : List Nat) : bump other ≠ 0 :: path := by
          cases other <;> simp [bump]
        simp [notBumped, descend, ownComplete]
      | (i + 1) :: path =>
        have isBumped (other : List Nat) : bump other = (i + 1) :: path ↔ other = i :: path := by
          cases other <;> simp [bump]
        simp [isBumped, descend, complete]
    · have laterSame : later.map (descend look (tree :: trees) ∘ bump) =
          later.map (descend look trees) := List.map_congr_left bumped
      rw [List.map_append, List.map_map, List.map_map, laterSame, same, List.flatMap_cons,
        List.map_append, ← ownSame]
      rfl

/-- A root stands in front of the trees below it. -/
theorem rooted {below : List Nat → Option β} {root : β} (enumerates : Enumerates below items)
    (atRoot : look [] = some root) (none : below [] = none)
    (further : ∀ i path, look (i :: path) = below (i :: path)) :
    Enumerates look (root :: items) := by
  obtain ⟨paths, sorted, complete, same⟩ := enumerates
  have agree (path : List Nat) (member : path ∈ paths) : look path = below path := by
    cases path with
    | nil => simp [complete, none] at member
    | cons i path => exact further i path
  refine ⟨[] :: paths, List.pairwise_cons.mpr ⟨fun path member => ?_, sorted⟩, fun path => ?_, ?_⟩
  · cases path with
    | nil => simp [complete, none] at member
    | cons i path => exact .nil
  · cases path with
    | nil => simp [atRoot]
    | cons i path => simp [complete, further]
  · rw [List.map_cons, atRoot, List.map_congr_left agree, same, List.map_cons]

end Enumerates

/-! ### What stands at a path -/

/-- What stands at a path below an expression that starts at an offset under so many others. -/
def Expr.at? (e : Expr ρ) (offset depth : Nat) : List Nat → Option (Visit ρ)
  | [] => some ⟨e, offset, depth⟩
  | i :: path =>
    (e.operandsAt offset)[i]?.bind fun (o, operand) => operand.at? o (depth + 1) path

/-- What stands at a path of a stream, with the position of its top-level expression. -/
def streamAt? (stream : List (Expr ρ)) : List Nat → Option (Nat × Visit ρ)
  | [] => none
  | k :: path =>
    (instructions stream)[k]?.bind fun i => (i.expr.at? i.offset 0 path).map (k, ·)

private theorem at?_snoc (e : Expr ρ) (offset depth : Nat) (path : List Nat) (i : Nat) :
    e.at? offset depth (path ++ [i]) = (e.at? offset depth path).bind fun parent =>
      (parent.expr.operandsAt parent.offset)[i]?.map fun (o, operand) =>
        ⟨operand, o, parent.depth + 1⟩ := by
  induction path generalizing e offset depth with
  | nil =>
    simp only [List.nil_append, Expr.at?, Option.bind_some]
    cases (e.operandsAt offset)[i]? <;> rfl
  | cons j path ih =>
    simp only [List.cons_append, Expr.at?]
    cases (e.operandsAt offset)[j]? with
    | none => rfl
    | some operand => exact ih operand.2 operand.1 (depth + 1)

private theorem at?_known {e : Expr ρ} (known : e.known = true) {offset depth : Nat}
    {path : List Nat}
    {visit : Visit ρ} (found : e.at? offset depth path = some visit) :
    visit.expr.known = true ∧ visit.depth = depth + path.length := by
  induction path generalizing e offset depth with
  | nil =>
    cases found
    exact ⟨known, rfl⟩
  | cons i path ih =>
    rw [Expr.at?, Option.bind_eq_some_iff] at found
    obtain ⟨⟨o, operand⟩, standing, found⟩ := found
    have operandKnown := operandsAt_known known (List.mem_of_getElem? standing)
    obtain ⟨exprKnown, deep⟩ := ih operandKnown found
    rw [List.length_cons]
    exact ⟨exprKnown, by omega⟩

/-- A walk visits what stands at the paths of its expression, in their order. -/
theorem walk_enumerates {e : Expr ρ} (known : e.known = true) (offset depth : Nat) :
    Enumerates (e.at? offset depth) (e.walk offset depth).visits := by
  induction e, known using known_induction generalizing offset depth with
  | step e known ih =>
    have each (operand : Nat × Expr ρ) (member : operand ∈ e.operandsAt offset) :
        Enumerates (operand.2.at? operand.1 (depth + 1))
          (operand.2.walk operand.1 (depth + 1)).visits :=
      ih offset operand.1 operand.2 member operand.1 (depth + 1)
    rw [walk_visits known]
    exact (Enumerates.forest _ _ each).rooted rfl rfl fun i path => rfl

/-! ### Moving a walk -/

/-- A visit moved by a number of bytes. -/
def Visit.shift (start : Nat) (visit : Visit ρ) : Visit ρ :=
  { visit with offset := visit.offset + start }

private theorem operandsFrom_shift (segments : List (Segment (Expr ρ))) (offset start : Nat) :
    operandsFrom (offset + start) segments =
      (operandsFrom offset segments).map fun (o, e) => (o + start, e) := by
  induction segments generalizing offset with
  | nil => rfl
  | cons segment rest ih =>
    cases segment with
    | fixed width => simp only [operandsFrom, Nat.add_right_comm offset start, ih]
    | child e => simp only [operandsFrom, Nat.add_right_comm offset start, ih, List.map_cons]

/-- A walk that starts later makes the same visits, all of them so much later. -/
theorem walk_shift {e : Expr ρ} (known : e.known = true) (offset start depth : Nat) :
    (e.walk (offset + start) depth).visits =
      (e.walk offset depth).visits.map (Visit.shift start) := by
  induction e, known using known_induction generalizing offset depth with
  | step e known ih =>
    have moved : e.operandsAt (offset + start) =
        (e.operandsAt offset).map fun (o, operand) => (o + start, operand) := by
      unfold Expr.operandsAt
      rw [Nat.add_right_comm, operandsFrom_shift]
    rw [walk_visits known, walk_visits known, moved, List.flatMap_map, List.map_cons,
      List.map_flatMap]
    refine congrArg₂ List.cons rfl (List.flatMap_congr fun (o, operand) member => ?_)
    exact ih offset o operand member o (depth + 1)

/-! ### Top-level expressions -/

/-- The bytes in front of a position of a stream. -/
def startOf : List (Expr ρ) → Nat → Nat
  | [], _ => 0
  | _ :: _, 0 => 0
  | e :: rest, k + 1 => e.bytes + startOf rest k

theorem startOf_succ {stream : List (Expr ρ)} {k : Nat} {e : Expr ρ}
    (standing : stream[k]? = some e) : startOf stream (k + 1) = startOf stream k + e.bytes := by
  induction stream generalizing k with
  | nil => cases standing
  | cons first rest ih =>
    cases k with
    | zero =>
      cases standing
      cases rest <;> simp [startOf]
    | succ k => rw [startOf, startOf, ih standing, Nat.add_assoc]

private theorem instructionsFrom_getElem? (stream : List (Expr ρ)) (position offset k : Nat) :
    (instructionsFrom position offset stream)[k]? =
      stream[k]?.map fun e => ⟨position + k, offset + startOf stream k, e⟩ := by
  induction stream generalizing position offset k with
  | nil => rfl
  | cons e rest ih =>
    cases k with
    | zero => simp [instructionsFrom, startOf]
    | succ k =>
      have next : position + 1 + k = position + (k + 1) := by omega
      simp only [instructionsFrom, List.getElem?_cons_succ, ih, startOf, next, Nat.add_assoc]

theorem instructions_getElem? (stream : List (Expr ρ)) (k : Nat) :
    (instructions stream)[k]? = stream[k]?.map fun e => ⟨k, startOf stream k, e⟩ := by
  simpa [instructions] using instructionsFrom_getElem? stream 0 0 k

/-- Of two instructions the first ends before the second starts. -/
theorem instructionsFrom_apart (stream : List (Expr ρ)) (position offset : Nat) :
    (instructionsFrom position offset stream).Pairwise fun i j => i.next ≤ j.offset := by
  induction stream generalizing position offset with
  | nil => exact .nil
  | cons e rest ih =>
    refine List.pairwise_cons.mpr ⟨fun j member => ?_, ih _ _⟩
    exact (instructionsFrom_offset_le member).2

theorem sizeAll_of_known {stream : List (Expr ρ)} (known : ∀ e ∈ stream, e.known = true) :
    sizeAll stream = .ok (startOf stream stream.length) := by
  induction stream with
  | nil => rfl
  | cons e rest ih =>
    rw [sizeAll, size_of_known (known e (by simp)), ih fun e member => known e (by simp [member]),
      List.length_cons, startOf]
    rfl

theorem walkFrom_end {stream : List (Expr ρ)} (known : ∀ e ∈ stream, e.known = true)
    (position offset : Nat) :
    (walkFrom position offset stream).result = .ok (offset + startOf stream stream.length) := by
  induction stream generalizing position offset with
  | nil => rfl
  | cons e rest ih =>
    have later := ih (fun e member => known e (by simp [member])) (position + 1)
      (offset + e.bytes)
    rw [walkFrom, Walk.result_andThen, Walk.result_map, walk_end (known e (by simp)),
      List.length_cons, startOf, ← Nat.add_assoc]
    exact later

private theorem walkFrom_visits {stream : List (Expr ρ)} (known : ∀ e ∈ stream, e.known = true)
    (position offset : Nat) :
    (walkFrom position offset stream).visits = (instructionsFrom position offset stream).flatMap
      fun i => (i.expr.walk i.offset 0).visits.map (i.position, ·) := by
  induction stream generalizing position offset with
  | nil => rfl
  | cons e rest ih =>
    rw [walkFrom_cons (known e (by simp)), ih fun e member => known e (by simp [member])]
    rfl

private theorem related_of_earlier {α : Type} {related : α → α → Prop} {items : List α} {i j : Nat}
    {a b : α} (pairs : items.Pairwise related) (before : i < j) (first : items[i]? = some a)
    (second : items[j]? = some b) : related a b := by
  obtain ⟨firstBound, rfl⟩ := List.getElem?_eq_some_iff.mp first
  obtain ⟨secondBound, rfl⟩ := List.getElem?_eq_some_iff.mp second
  exact List.pairwise_iff_getElem.mp pairs i j firstBound secondBound before

/-! ### The expressions of a stream -/

section Stream

variable {stream : List (Expr ρ)}

theorem streamAt?_cons {k position : Nat} {path : List Nat} {visit : Visit ρ}
    (found : streamAt? stream (k :: path) = some (position, visit)) :
    position = k ∧ ∃ e, stream[k]? = some e ∧ e.at? (startOf stream k) 0 path = some visit := by
  rw [streamAt?, instructions_getElem?] at found
  cases standing : stream[k]? with
  | none => simp [standing] at found
  | some e =>
    simp only [standing, Option.map_some, Option.bind_some, Option.map_eq_some_iff,
      Prod.mk.injEq] at found
    obtain ⟨_, here, rfl, rfl⟩ := found
    exact ⟨rfl, e, rfl, here⟩

theorem streamAt?_singleton (stream : List (Expr ρ)) (k : Nat) :
    streamAt? stream [k] = stream[k]?.map fun e => (k, ⟨e, startOf stream k, 0⟩) := by
  rw [streamAt?, instructions_getElem?]
  cases stream[k]? <;> rfl

/-- Below a path stand the operands of what stands there. -/
theorem streamAt?_snoc (stream : List (Expr ρ)) (k : Nat) (path : List Nat) (i : Nat) :
    streamAt? stream (k :: path ++ [i]) =
      (streamAt? stream (k :: path)).bind fun (position, parent) =>
        (parent.expr.operandsAt parent.offset)[i]?.map fun (o, operand) =>
          (position, ⟨operand, o, parent.depth + 1⟩) := by
  rw [List.cons_append, streamAt?, streamAt?, instructions_getElem?]
  cases stream[k]? with
  | none => rfl
  | some e =>
    simp only [Option.map_some, Option.bind_some, at?_snoc]
    cases e.at? (startOf stream k) 0 path with
    | none => rfl
    | some parent =>
      simp only [Option.bind_some, Option.map_some, Option.map_map]
      rfl

theorem operand_of_streamAt? {k : Nat} {path : List Nat} {i position : Nat} {operand : Visit ρ}
    (found : streamAt? stream (k :: path ++ [i]) = some (position, operand)) :
    ∃ parent, streamAt? stream (k :: path) = some (position, parent) ∧
      (parent.expr.operandsAt parent.offset)[i]? = some (operand.offset, operand.expr) := by
  rw [streamAt?_snoc, Option.bind_eq_some_iff] at found
  obtain ⟨⟨position, parent⟩, above, below⟩ := found
  obtain ⟨⟨o, e⟩, standing, same⟩ := Option.map_eq_some_iff.mp below
  cases same
  exact ⟨parent, above, standing⟩

section Known

variable (known : ∀ e ∈ stream, e.known = true)

include known

theorem streamAt?_known {k position : Nat} {path : List Nat} {visit : Visit ρ}
    (found : streamAt? stream (k :: path) = some (position, visit)) :
    visit.expr.known = true ∧ visit.depth = path.length := by
  obtain ⟨_, e, standing, here⟩ := streamAt?_cons found
  have deep := at?_known (known e (List.mem_of_getElem? standing)) here
  rwa [Nat.zero_add] at deep

/-- The walk of a stream visits what stands at its paths, in their order. -/
theorem walkStream_enumerates : Enumerates (streamAt? stream) (walkStream stream).visits := by
  have descends : streamAt? stream = descend
      (fun i path => (i.expr.at? i.offset 0 path).map (i.position, ·)) (instructions stream) := by
    funext path
    cases path with
    | nil => rfl
    | cons k path =>
      rw [streamAt?, descend, instructions_getElem?]
      cases stream[k]? <;> rfl
  rw [walkStream, walkFrom_visits known, descends]
  refine Enumerates.forest _ _ fun i member => ?_
  have standing := List.mem_of_getElem? (instructionsFrom_expr member)
  exact (walk_enumerates (known i.expr standing) i.offset 0).map (i.position, ·)

theorem walkStream_increasing :
    ((walkStream stream).visits.map (·.2.offset)).Pairwise (· < ·) := by
  have increasing := (sitesFrom_increasing known 0 0).1
  rwa [sitesFrom, List.map_map] at increasing

end Known

end Stream

/-! ### The offset table -/

namespace OffsetTable

/-- A table divides the bytes of a stream among its expressions. -/
structure Partitions (table : OffsetTable) (stream : List (Expr ρ)) : Prop where
  total : sizeAll stream = .ok table.endOffset
  first : stream ≠ [] → table.offsetOf? 0 = some 0
  /-- A top-level expression ends where the next one starts, the last one where the stream ends. -/
  adjoining : ∀ k e, stream[k]? = some e → ∃ offset width,
    table.offsetOf? k = some offset ∧ e.size = .ok width ∧
      (k + 1 < stream.length → table.offsetOf? (k + 1) = some (offset + width)) ∧
      (k + 1 = stream.length → table.endOffset = offset + width)
  beyond : ∀ k, stream.length ≤ k → table.offsetOf? k = none
  increasing : ((walkStream stream).visits.map (·.2.offset)).Pairwise (· < ·)
  preorder : Enumerates (streamAt? stream) (walkStream stream).visits
  count : table.size = (walkStream stream).visits.length
  /-- The table knows the expressions of the stream, each under its own offset. -/
  get?_iff : ∀ offset site, table.get? offset = some site ↔
    ∃ path position visit, streamAt? stream path = some (position, visit) ∧
      visit.offset = offset ∧ site = ⟨position, visit.depth, visit.expr.tokenName⟩
  unshared : ∀ path other position visit position' visit',
    streamAt? stream path = some (position, visit) →
      streamAt? stream other = some (position', visit') → visit.offset = visit'.offset →
        path = other
  placed : ∀ k path position visit, streamAt? stream (k :: path) = some (position, visit) →
    position = k ∧ visit.depth = path.length
  /-- Paths of one step lead to the stream, and each further step to an operand. -/
  topLevel : ∀ k, (streamAt? stream [k]).map (·.2.expr) = stream[k]?
  operands : ∀ path position parent, streamAt? stream path = some (position, parent) →
    ∃ operands, parent.expr.children = .ok operands ∧
      ∀ i, (streamAt? stream (path ++ [i])).map (·.2.expr) = operands[i]?
  /-- An operand lies inside its expression, behind the token. -/
  nested : ∀ path i position parent position' operand,
    streamAt? stream path = some (position, parent) →
      streamAt? stream (path ++ [i]) = some (position', operand) →
        ∃ width inner, parent.expr.size = .ok width ∧ operand.expr.size = .ok inner ∧
          parent.offset + tokenWidth ≤ operand.offset ∧
          operand.offset + inner ≤ parent.offset + width
  /-- Of two expressions side by side the first ends before the second starts. -/
  siblings : ∀ path i j position first position' second, i < j →
    streamAt? stream (path ++ [i]) = some (position, first) →
      streamAt? stream (path ++ [j]) = some (position', second) →
        ∃ width, first.expr.size = .ok width ∧ first.offset + width ≤ second.offset

section Known

variable {stream : List (Expr ρ)} {table : OffsetTable} (known : ∀ e ∈ stream, e.known = true)

include known

theorem build_endOffset (built : build stream = .ok table) :
    table.endOffset = startOf stream stream.length := by
  simp only [build, walkStream, walkFrom_end known, Nat.zero_add] at built
  cases built
  rfl

/-- The top-level expression at a position starts behind the bytes in front of it. -/
theorem offsetOf?_eq (built : build stream = .ok table) (k : Nat) :
    table.offsetOf? k = stream[k]?.map fun _ => startOf stream k := by
  rw [offsetOf?, topLevel, build_sites built, sitesFrom_topLevel known, ← instructions,
    List.getElem?_map, List.getElem?_map, instructions_getElem?]
  cases stream[k]? <;> rfl

private theorem get?_iff_streamAt? (built : build stream = .ok table) (offset : Nat) (site : Site) :
    table.get? offset = some site ↔
      ∃ path position visit, streamAt? stream path = some (position, visit) ∧
        visit.offset = offset ∧ site = ⟨position, visit.depth, visit.expr.tokenName⟩ := by
  rw [get?, find?_key_iff (build_sites_nodup known built), build_sites built, sitesFrom,
    List.mem_map]
  constructor
  · rintro ⟨⟨position, visit⟩, visited, same⟩
    cases same
    obtain ⟨path, found⟩ := ((walkStream_enumerates known).mem_iff _).mp visited
    exact ⟨path, position, visit, found, rfl, rfl⟩
  · rintro ⟨path, position, visit, found, rfl, rfl⟩
    exact ⟨_, ((walkStream_enumerates known).mem_iff _).mpr ⟨path, found⟩, rfl⟩

end Known

/-- The table of a known stream divides its bytes among the expressions. -/
theorem build_partitions {stream : List (Expr ρ)} {table : OffsetTable}
    (known : ∀ e ∈ stream, e.known = true) (built : build stream = .ok table) :
    table.Partitions stream where
  total := by rw [sizeAll_of_known known, build_endOffset known built]
  first nonempty := by
    obtain ⟨e, rest, rfl⟩ := List.exists_cons_of_ne_nil nonempty
    rw [offsetOf?_eq known built]
    rfl
  adjoining k e standing := by
    have next := startOf_succ standing
    refine ⟨startOf stream k, e.bytes, ?_, size_of_known (known e (List.mem_of_getElem? standing)),
      fun more => ?_, fun last => ?_⟩
    · rw [offsetOf?_eq known built, standing]
      rfl
    · rw [offsetOf?_eq known built, List.getElem?_eq_getElem more, next]
      rfl
    · rw [build_endOffset known built, ← last, next]
  beyond k past := by
    rw [offsetOf?_eq known built, List.getElem?_eq_none past]
    rfl
  increasing := walkStream_increasing known
  preorder := walkStream_enumerates known
  count := by
    rw [size, build_sites built, sitesFrom, List.length_map]
    rfl
  get?_iff := get?_iff_streamAt? known built
  unshared path other position visit position' visit' found found' same := by
    have distinct := (walkStream_increasing known).imp Nat.ne_of_lt
    exact (walkStream_enumerates known).path_unique distinct found found' same
  placed k path position visit found := by
    exact ⟨(streamAt?_cons found).1, (streamAt?_known known found).2⟩
  topLevel k := by
    rw [streamAt?_singleton]
    cases stream[k]? <;> rfl
  operands path position parent found := by
    cases path with
    | nil => cases found
    | cons k path =>
      have parentKnown := (streamAt?_known known found).1
      refine ⟨_, children_eq_operands parentKnown parent.offset, fun i => ?_⟩
      simp only [streamAt?_snoc, found, Option.bind_some, List.getElem?_map]
      cases (parent.expr.operandsAt parent.offset)[i]? <;> rfl
  nested path i position parent position' operand found below := by
    cases path with
    | nil => cases found
    | cons k path =>
      have parentKnown := (streamAt?_known known found).1
      obtain ⟨_, above, standing⟩ := operand_of_streamAt? below
      cases found.symm.trans above
      have member := List.mem_of_getElem? standing
      exact ⟨_, _, size_of_known parentKnown, size_of_known (operandsAt_known parentKnown member),
        operandsAt_inside parentKnown member⟩
  siblings path i j position first position' second before foundFirst foundSecond := by
    cases path with
    | nil =>
      rw [List.nil_append, streamAt?_singleton, Option.map_eq_some_iff] at foundFirst foundSecond
      obtain ⟨e, standing, same⟩ := foundFirst
      obtain ⟨e', standing', same'⟩ := foundSecond
      cases same
      cases same'
      have firstStands := instructions_getElem? stream i
      have secondStands := instructions_getElem? stream j
      rw [standing] at firstStands
      rw [standing'] at secondStands
      have apart := related_of_earlier (instructionsFrom_apart stream 0 0) before firstStands
        secondStands
      exact ⟨_, size_of_known (known e (List.mem_of_getElem? standing)), apart⟩
    | cons k path =>
      obtain ⟨parent, above, standing⟩ := operand_of_streamAt? foundFirst
      obtain ⟨_, above', standing'⟩ := operand_of_streamAt? foundSecond
      cases above.symm.trans above'
      have parentKnown := (streamAt?_known known above).1
      have firstKnown := operandsAt_known parentKnown (List.mem_of_getElem? standing)
      have apart := related_of_earlier (operandsFrom_apart _ _) before standing standing'
      exact ⟨_, size_of_known firstKnown, apart⟩

end OffsetTable

/-- The offset table of a known stream exists and divides the stream among its expressions; and the
walk of a known expression from anywhere makes its visits in pre-order, so much later than from
zero. -/
theorem offsets_partition_stream {stream : List (Expr ρ)}
    (known : ∀ e ∈ stream, e.known = true) :
    (∃ table, OffsetTable.build stream = .ok table ∧ table.Partitions stream) ∧
      ∀ e : Expr ρ, e.known = true → ∀ start,
        Enumerates (e.at? start 0) (e.walk start 0).visits ∧
          (e.walk start 0).visits = (e.walk 0 0).visits.map (Visit.shift start) ∧
          ∃ width, e.size = .ok width ∧ (e.walk start 0).result = .ok (start + width) := by
  obtain ⟨table, built⟩ := OffsetTable.build_of_known known
  refine ⟨⟨table, built, OffsetTable.build_partitions known built⟩, fun e eKnown start => ?_⟩
  have shifted := walk_shift eKnown 0 start 0
  rw [Nat.zero_add] at shifted
  exact ⟨walk_enumerates eKnown start 0, shifted, e.bytes, size_of_known eKnown,
    walk_end eKnown start 0⟩

/-- A branch, a call with two operands and the end of a script. -/
theorem offsets_partition_stream_call :
    let call : Expr String :=
      .variadic (.call .math "Add") [.atom (.int 3), .unary (.skip 2) (.atom (.marker .true))]
    let stream : List (Expr String) :=
      [.unary (.jumpIfNot 26) (.atom (.marker .false)), call, .atom (.marker .endOfScript)]
    (∀ e ∈ stream, e.known = true) ∧
      (∃ table, OffsetTable.build stream = .ok table ∧ table.Partitions stream ∧
        table.offsetOf? 1 = some 6 ∧ table.endOffset = 28 ∧
        table.get? 15 = some ⟨1, 1, "EX_IntConst"⟩) ∧
      Enumerates (call.at? 100 0) (call.walk 100 0).visits := by
  intro call stream
  have known : ∀ e ∈ stream, e.known = true := by
    simp [stream, call, Expr.known, Atom.known]
  obtain ⟨⟨table, built, partitions⟩, walks⟩ := offsets_partition_stream known
  have read : (OffsetTable.build stream).toOption.map (fun table =>
      (table.offsetOf? 1, table.endOffset, table.get? 15)) =
        some (some 6, 28, some ⟨1, 1, "EX_IntConst"⟩) := by
    subst stream call
    decide
  rw [built] at read
  have same := Option.some.inj read
  simp only [Prod.mk.injEq] at same
  exact ⟨known, ⟨table, built, partitions, same⟩, (walks call (known call (by simp [stream])) 100).1⟩

end ScriptFlow
