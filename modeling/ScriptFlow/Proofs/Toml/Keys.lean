import Mathlib.Data.List.Nodup
import ScriptFlow.Toml.Reader

/-! Keys of a TOML document. Whichever way a table comes about, by a header, by dotted keys or
between braces, a key is only put into it where it is not there yet. So no table of a document that
can be read has a key twice, and what is looked up in it is all that it says about a key. -/
namespace ScriptFlow.Toml

/-- No key comes twice. -/
def DistinctKeys {α : Type} (members : List (String × α)) : Prop := (members.map (·.1)).Nodup

/-- A value in which no table has a key twice, at any depth. -/
inductive Value.Tidy : Value → Prop where
  | bool (value : Bool) : (Value.bool value).Tidy
  | int (value : Int) : (Value.int value).Tidy
  | float (value : Single) : (Value.float value).Tidy
  | text (value : String) : (Value.text value).Tidy
  | moment : Value.moment.Tidy
  | array {items : List Value} (each : ∀ item ∈ items, item.Tidy) : (Value.array items).Tidy
  | table {members : List (String × Value)} (distinct : DistinctKeys members)
      (each : ∀ member ∈ members, member.2.Tidy) : (Value.table members).Tidy

/-- What stands under a key and has no key twice in its tables, at any depth. -/
inductive Item.Tidy : Item → Prop where
  | value {value : Value} (tidy : value.Tidy) : (Item.value value).Tidy
  | table {origin : Origin} {members : Members} (distinct : DistinctKeys members)
      (each : ∀ member ∈ members, member.2.Tidy) : (Item.table origin members).Tidy
  | tables {elements : List Members} (distinct : ∀ members ∈ elements, DistinctKeys members)
      (each : ∀ members ∈ elements, ∀ member ∈ members, member.2.Tidy) :
      (Item.tables elements).Tidy

/-- A table under construction that has no key twice, and none of its tables has. -/
structure Members.Tidy (members : Members) : Prop where
  distinct : DistinctKeys members
  each : ∀ member ∈ members, member.2.Tidy

variable {α : Type} {members changed inner latest : Members} {elements earlier : List Members}
  {item : Item} {origin : Origin} {value : Value} {key step : String} {path : List String}

theorem lookup?_eq_none_iff {members : List (String × α)} :
    lookup? key members = none ↔ key ∉ members.map (·.1) := by
  rw [lookup?, Option.map_eq_none_iff, List.find?_eq_none, List.mem_map]
  constructor
  · rintro none ⟨member, inside, rfl⟩
    exact none member inside (decide_eq_true rfl)
  · intro absent member inside same
    exact absent ⟨member, inside, of_decide_eq_true same⟩

theorem mem_of_lookup? {members : List (String × α)} {found : α}
    (stands : lookup? key members = some found) : (key, found) ∈ members := by
  obtain ⟨⟨other, _⟩, first, rfl⟩ := Option.map_eq_some_iff.mp stands
  obtain rfl : other = key := by simpa using List.find?_some first
  exact List.mem_of_find?_eq_some first

/-! ### Tables under construction -/

theorem Members.Tidy.empty : Members.Tidy [] := ⟨List.nodup_nil, by simp⟩

theorem Members.Tidy.table (tidy : Members.Tidy members) : (Item.table origin members).Tidy :=
  .table tidy.distinct tidy.each

theorem Members.Tidy.tables (each : ∀ members ∈ elements, Members.Tidy members) :
    (Item.tables elements).Tidy :=
  .tables (fun members member => (each members member).distinct)
    fun members member => (each members member).each

/-- A key that is not there can be put at the end. -/
theorem Members.Tidy.append (tidy : Members.Tidy members) (absent : lookup? key members = none)
    (own : item.Tidy) : Members.Tidy (members.append key item) where
  distinct := by
    have keys := tidy.distinct.concat (lookup?_eq_none_iff.mp absent)
    rw [List.concat_eq_append] at keys
    rw [DistinctKeys, Members.append, List.map_append]
    exact keys
  each member inside := by
    obtain inside | rfl := List.mem_append.mp inside |>.imp_right List.mem_singleton.mp
    · exact tidy.each member inside
    · exact own

/-- What stands under a key can be replaced. -/
theorem Members.Tidy.replace (tidy : Members.Tidy members) (own : item.Tidy) :
    Members.Tidy (members.replace key item) where
  distinct := by
    have keys : (members.replace key item).map (·.1) = members.map (·.1) := by
      rw [Members.replace, List.map_map]
      refine List.map_congr_left fun ⟨other, old⟩ _ => ?_
      dsimp only [Function.comp_apply]
      split <;> rfl
    rw [DistinctKeys, keys]
    exact tidy.distinct
  each member inside := by
    obtain ⟨⟨other, old⟩, before, rfl⟩ := List.mem_map.mp inside
    dsimp only
    split
    · exact own
    · exact tidy.each _ before

theorem Members.Tidy.inside (tidy : Members.Tidy members)
    (stands : lookup? step members = some (.table origin inner)) : Members.Tidy inner := by
  cases tidy.each _ (mem_of_lookup? stands) with
  | table distinct each => exact ⟨distinct, each⟩

theorem Members.Tidy.each_element (tidy : Members.Tidy members)
    (stands : lookup? step members = some (.tables elements)) :
    ∀ members ∈ elements, Members.Tidy members := by
  cases tidy.each _ (mem_of_lookup? stands) with
  | tables distinct each =>
    exact fun members member => ⟨distinct members member, each members member⟩

theorem Members.Tidy.replace_latest (tidy : Members.Tidy members)
    (stands : lookup? step members = some (.tables (latest :: earlier)))
    (own : Members.Tidy changed) :
    Members.Tidy (members.replace step (.tables (changed :: earlier))) :=
  tidy.replace (Members.Tidy.tables (List.forall_mem_cons.mpr
    ⟨own, fun members member => tidy.each_element stands members (List.mem_cons_of_mem _ member)⟩))

/-- A value goes under a key that is not there yet. -/
theorem Members.define_tidy (own : value.Tidy) (tidy : Members.Tidy members)
    (defined : Members.define key value path members = some changed) : Members.Tidy changed := by
  induction path generalizing members changed with
  | nil =>
    simp only [Members.define] at defined
    split at defined
    · next absent =>
      cases defined
      exact tidy.append absent (.value own)
    · cases defined
  | cons step path ih =>
    simp only [Members.define] at defined
    split at defined
    · next absent =>
      obtain ⟨inner, below, rfl⟩ := Option.map_eq_some_iff.mp defined
      exact tidy.append absent (ih .empty below).table
    · next stands =>
      split at defined
      · cases defined
      · obtain ⟨inner, below, rfl⟩ := Option.map_eq_some_iff.mp defined
        exact tidy.replace (ih (tidy.inside stands) below).table
    · next latest earlier stands =>
      split at defined
      · cases defined
      · obtain ⟨changed, below, rfl⟩ := Option.map_eq_some_iff.mp defined
        exact tidy.replace_latest stands
          (ih (tidy.each_element stands latest (List.mem_cons_self ..)) below)
    · cases defined

/-- A change of one table on the way of a header leaves the other tables as they are. -/
theorem Members.update_tidy {change : Members → Option Members}
    (keeps : ∀ members changed, Members.Tidy members → change members = some changed →
      Members.Tidy changed)
    (tidy : Members.Tidy members) (updated : Members.update change path members = some changed) :
    Members.Tidy changed := by
  induction path generalizing members changed with
  | nil => exact keeps members changed tidy updated
  | cons step path ih =>
    simp only [Members.update] at updated
    split at updated
    · next absent =>
      obtain ⟨inner, below, rfl⟩ := Option.map_eq_some_iff.mp updated
      exact tidy.append absent (ih .empty below).table
    · next stands =>
      obtain ⟨inner, below, rfl⟩ := Option.map_eq_some_iff.mp updated
      exact tidy.replace (ih (tidy.inside stands) below).table
    · next latest earlier stands =>
      obtain ⟨changed, below, rfl⟩ := Option.map_eq_some_iff.mp updated
      exact tidy.replace_latest stands
        (ih (tidy.each_element stands latest (List.mem_cons_self ..)) below)
    · cases updated

theorem Members.openTable_tidy (tidy : Members.Tidy members)
    (opened : Members.openTable key members = some changed) : Members.Tidy changed := by
  unfold Members.openTable at opened
  split at opened
  · next absent =>
    cases opened
    exact tidy.append absent Members.Tidy.empty.table
  · next stands =>
    cases opened
    exact tidy.replace (tidy.inside stands).table
  · cases opened

theorem Members.openElement_tidy (tidy : Members.Tidy members)
    (opened : Members.openElement key members = some changed) : Members.Tidy changed := by
  unfold Members.openElement at opened
  split at opened
  · next absent =>
    cases opened
    exact tidy.append absent (Members.Tidy.tables (by simp [Members.Tidy.empty]))
  · next elements stands =>
    cases opened
    exact tidy.replace
      (Members.Tidy.tables (List.forall_mem_cons.mpr ⟨.empty, tidy.each_element stands⟩))
  · cases opened

/-! ### Finished tables -/

theorem finishMembers_eq_map (members : Members) :
    finishMembers members = members.map fun member => (member.1, member.2.finish) := by
  induction members with
  | nil => rfl
  | cons member members ih => rw [finishMembers, ih, List.map_cons]

theorem finishElements_eq_map (elements : List Members) :
    finishElements elements = elements.map fun members => .table (finishMembers members) := by
  induction elements with
  | nil => rfl
  | cons members elements ih => rw [finishElements, ih, List.map_cons]

private theorem finishMembers_tidy (distinct : DistinctKeys members)
    (each : ∀ member ∈ members, member.2.finish.Tidy) :
    (Value.table (finishMembers members)).Tidy := by
  rw [finishMembers_eq_map]
  refine .table ?_ (List.forall_mem_map.mpr each)
  rw [DistinctKeys, List.map_map]
  exact distinct

theorem Item.Tidy.finish (tidy : item.Tidy) : item.finish.Tidy := by
  induction tidy with
  | value own => exact own
  | table distinct each ih => exact finishMembers_tidy distinct ih
  | tables distinct each ih =>
    rw [Item.finish, finishElements_eq_map]
    refine .array fun item inside => ?_
    obtain ⟨members, member, rfl⟩ := List.mem_map.mp (List.mem_reverse.mp inside)
    exact finishMembers_tidy (distinct members member) (ih members member)

theorem Members.Tidy.finish (tidy : Members.Tidy members) :
    (Value.table (finishMembers members)).Tidy :=
  finishMembers_tidy tidy.distinct fun member inside => (tidy.each member inside).finish

/-! ### Values and lines -/

private theorem intOf?_tidy {n : Int} (found : intOf? n = some value) : value.Tidy := by
  unfold intOf? at found
  split at found
  · cases found
    exact .int n
  · cases found

private theorem floatOf?_tidy {negative : Bool} {d : Decimal}
    (found : floatOf? negative d = some value) : value.Tidy := by
  unfold floatOf? at found
  split at found
  · cases found
  · cases found
    exact .float _

private theorem decimalOf?_tidy {negative : Bool} {cs : List Char}
    (found : decimalOf? negative cs = some value) : value.Tidy := by
  unfold decimalOf? at found
  split at found
  · cases found
  split at found
  · cases found
  split at found
  · exact intOf?_tidy found
  · split at found
    · cases found
    split at found
    · exact floatOf?_tidy found
    · split at found
      · obtain ⟨power, -, found⟩ := Option.bind_eq_some_iff.mp found
        exact floatOf?_tidy found
      · cases found
  · split at found
    · obtain ⟨power, -, found⟩ := Option.bind_eq_some_iff.mp found
      exact floatOf?_tidy found
    · cases found

private theorem radixInt?_tidy {radix : Nat} {cs : List Char}
    (found : radixInt? radix cs = some value) : value.Tidy := by
  obtain ⟨digits, -, found⟩ := Option.bind_eq_some_iff.mp found
  exact intOf?_tidy found

private theorem numberOf?_tidy {cs : List Char} (found : numberOf? cs = some value) :
    value.Tidy := by
  unfold numberOf? at found
  split at found
  · exact radixInt?_tidy found
  · exact radixInt?_tidy found
  · exact radixInt?_tidy found
  · split at found
    · cases found
      exact .float _
    · cases found
      exact .float _
    · exact decimalOf?_tidy found

/-- A word has no tables. -/
private theorem scanWord?_tidy {cs rest : List Char} (found : scanWord? cs = some (value, rest)) :
    value.Tidy := by
  unfold scanWord? at found
  split at found
  split at found
  · split at found
    · cases found
      exact .moment
    · split at found
      · cases found
        exact .moment
      · cases found
  · obtain ⟨own, word, same⟩ := Option.map_eq_some_iff.mp found
    cases same
    unfold wordValue? at word
    split at word
    · cases word
      exact .bool true
    split at word
    · cases word
      exact .bool false
    split at word
    · cases word
      exact .moment
    · exact numberOf?_tidy word

/-- With some fuel, values, the rest of an array and the rest of an inline table are read without a
key that comes twice. -/
structure ReadsTidy (fuel : Nat) : Prop where
  value {room : Nat} {cs rest : List Char} {value : Value} :
    readValue fuel room cs = some (value, rest) → value.Tidy
  items {room : Nat} {read : List Value} {cs rest : List Char} {value : Value} :
    (∀ item ∈ read, item.Tidy) → readItems fuel room read cs = some (value, rest) → value.Tidy
  members {room : Nat} {members : Members} {cs rest : List Char} {value : Value} :
    Members.Tidy members → readMembers fuel room members cs = some (value, rest) → value.Tidy

section Step

variable {fuel room : Nat} {cs rest : List Char}

private theorem readValue_tidy (reads : ReadsTidy fuel)
    (found : readValue (fuel + 1) room cs = some (value, rest)) : value.Tidy := by
  unfold readValue at found
  split at found
  · exact reads.items (by simp) found
  · split at found
    · cases found
      exact .table List.nodup_nil (by simp)
    · exact reads.members .empty found
  · split at found
    · cases found
      exact .text _
    · exact scanWord?_tidy found

private theorem readItems_tidy {read : List Value} (reads : ReadsTidy fuel)
    (tidy : ∀ item ∈ read, item.Tidy)
    (found : readItems (fuel + 1) room read cs = some (value, rest)) : value.Tidy := by
  rw [readItems] at found
  split at found
  · cases found
    exact .array fun item inside => tidy item (List.mem_reverse.mp inside)
  · split at found
    · cases found
    · next item rest first =>
      have more := List.forall_mem_cons.mpr ⟨reads.value first, tidy⟩
      split at found
      · exact reads.items more found
      · cases found
        exact .array fun item inside => more item (List.mem_reverse.mp inside)
      · cases found

private theorem readMembers_tidy (reads : ReadsTidy fuel) (tidy : Members.Tidy members)
    (found : readMembers (fuel + 1) room members cs = some (value, rest)) : value.Tidy := by
  rw [readMembers] at found
  split at found
  · split at found
    · cases found
    · next first =>
      split at found
      · cases found
      · next defined =>
        have more := Members.define_tidy (reads.value first) tidy defined
        split at found
        · exact reads.members more found
        · cases found
          exact more.finish
        · cases found
  · cases found

end Step

theorem reads_tidy (fuel : Nat) : ReadsTidy fuel := by
  induction fuel with
  | zero => exact ⟨nofun, nofun, nofun⟩
  | succ fuel ih => exact ⟨readValue_tidy ih, readItems_tidy ih, readMembers_tidy ih⟩

/-! ### Documents -/

/-- An outline whose tables have no key twice. -/
def Outline.Tidy (outline : Outline) : Prop := Members.Tidy outline.members

variable {outline later : Outline} {cs rest : List Char}

theorem Outline.define_tidy (own : value.Tidy) (tidy : outline.Tidy)
    (defined : outline.define path key value = some later) : later.Tidy := by
  obtain ⟨members, updated, rfl⟩ := Option.map_eq_some_iff.mp defined
  exact Members.update_tidy (fun _ _ => Members.define_tidy own) tidy updated

theorem Outline.openTable_tidy (tidy : outline.Tidy)
    (opened : outline.openTable path key = some later) : later.Tidy := by
  obtain ⟨members, updated, rfl⟩ := Option.map_eq_some_iff.mp opened
  exact Members.update_tidy (fun _ _ => Members.openTable_tidy) tidy updated

theorem Outline.openElement_tidy (tidy : outline.Tidy)
    (opened : outline.openElement path key = some later) : later.Tidy := by
  obtain ⟨members, updated, rfl⟩ := Option.map_eq_some_iff.mp opened
  exact Members.update_tidy (fun _ _ => Members.openElement_tidy) tidy updated

/-- A line that ends as it should changes the outline as it says. -/
private theorem change_of_line {change : Option Outline} {ending : Option (List Char)}
    (found : (do return (← change, ← ending)) = some (later, rest)) : change = some later := by
  simp only [Option.bind_eq_bind, Option.bind_eq_some_iff, Option.pure_def, Option.some.injEq,
    Prod.mk.injEq] at found
  obtain ⟨changed, same, _, _, rfl, _⟩ := found
  exact same

private theorem readHeader_tidy (tidy : outline.Tidy)
    (found : readHeader outline cs = some (later, rest)) : later.Tidy := by
  unfold readHeader at found
  split at found
  · split at found
    · exact Outline.openElement_tidy tidy (change_of_line found)
    · cases found
  · split at found
    · exact Outline.openTable_tidy tidy (change_of_line found)
    · cases found

private theorem readPair_tidy (tidy : outline.Tidy)
    (found : readPair outline cs = some (later, rest)) : later.Tidy := by
  unfold readPair at found
  split at found
  · dsimp only at found
    split at found
    · cases found
    · next first =>
      exact Outline.define_tidy ((reads_tidy _).value first) tidy (change_of_line found)
  · cases found

/-- Whatever lines follow, the document is a table, and no table in it has a key twice. -/
theorem readLines_tidy {fuel : Nat} (tidy : outline.Tidy)
    (found : readLines fuel outline cs = some value) :
    value.Tidy ∧ ∃ members, value = .table members := by
  induction fuel generalizing outline cs with
  | zero => cases found
  | succ fuel ih =>
    rw [readLines] at found
    split at found
    · cases found
      exact ⟨Members.Tidy.finish tidy, _, rfl⟩
    · split at found
      · next header => exact ih (readHeader_tidy tidy header) found
      · cases found
    · split at found
      · split at found
        · exact ih tidy found
        · cases found
      · split at found
        · next pair => exact ih (readPair_tidy tidy pair) found
        · cases found

/-- A document that can be read is a table, and no table in it has a key twice. -/
theorem read?_tidy {text : String} (found : read? text = some value) :
    value.Tidy ∧ ∃ members, value = .table members := by
  have start : Outline.Tidy {} := Members.Tidy.empty
  exact readLines_tidy start found

end ScriptFlow.Toml
