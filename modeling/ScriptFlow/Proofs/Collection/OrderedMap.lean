import Mathlib.Data.List.Induction
import Mathlib.Data.List.Nodup
import ScriptFlow.Collection.OrderedMap

/-! Lists read item by item, and looking up a key in a list of entries. Where keys do not repeat, a
look-up finds exactly the entries of the list. A map answers with what was stored last under a key,
and a change of all values shows in every answer. -/
namespace ScriptFlow

section Items

variable {α β : Type}

/-- What is written for items is read as their values exactly if each is. -/
theorem mapM_map_eq_some_map_iff {γ : Type} {read : β → Option γ} {write : α → β} {value : α → γ}
    {items : List α} :
    (items.map write).mapM read = some (items.map value) ↔
      ∀ item ∈ items, read (write item) = some (value item) := by
  induction items with
  | nil => simp
  | cons item items ih =>
    rw [List.mapM_map] at ih
    simp [Option.bind_eq_some_iff, ih]

/-- Items are read back from what is written for them exactly if each is. -/
theorem mapM_map_eq_some_iff {read : β → Option α} {write : α → β} {items : List α} :
    (items.map write).mapM read = some items ↔ ∀ item ∈ items, read (write item) = some item := by
  have values := @mapM_map_eq_some_map_iff α β α read write id items
  rwa [List.map_id] at values

/-- Every item of a list was read from something. -/
theorem exists_of_mapM_eq_some {read : β → Option α} {written : List β} {items : List α}
    (done : written.mapM read = some items) : ∀ item ∈ items, ∃ w, read w = some item := by
  induction written generalizing items with
  | nil =>
    cases done
    simp
  | cons w written ih =>
    simp only [List.mapM_cons, Option.bind_eq_bind, Option.bind_eq_some_iff, Option.pure_def,
      Option.some.injEq] at done
    obtain ⟨item, first, rest, others, rfl⟩ := done
    intro other member
    rcases List.mem_cons.mp member with rfl | member
    · exact ⟨w, first⟩
    · exact ih others other member

end Items

variable {κ ν : Type} [DecidableEq κ]

/-- A look-up by key finds exactly the entries, if no key repeats. -/
theorem find?_key_iff {entries : List (κ × ν)} (distinct : (entries.map (·.1)).Nodup) {key : κ}
    {value : ν} :
    (entries.find? (·.1 = key)).map (·.2) = some value ↔ (key, value) ∈ entries := by
  induction entries with
  | nil => simp
  | cons entry rest ih =>
    obtain ⟨first, stored⟩ := entry
    obtain ⟨fresh, restDistinct⟩ := List.nodup_cons.mp distinct
    by_cases same : first = key
    · subst same
      have absent : (first, value) ∉ rest :=
        fun member => fresh (List.mem_map.mpr ⟨(first, value), member, rfl⟩)
      simp [absent, eq_comm]
    · have other : key ≠ first := Ne.symm same
      simpa [same, other] using ih restDistinct

namespace OrderedMap

@[simp] theorem get?_empty (key : κ) : ({} : OrderedMap κ ν).get? key = none := rfl

/-- A change shows under its own key only. -/
theorem get?_alter (m : OrderedMap κ ν) (key other : κ) (change : Option ν → ν) :
    (m.alter key change).get? other =
      if other = key then some (change (m.get? key)) else m.get? other := by
  obtain ⟨entries⟩ := m
  simp only [alter, get?]
  induction entries with
  | nil => by_cases same : other = key <;> simp [alterEntries, same, eq_comm]
  | cons entry rest ih =>
    obtain ⟨first, stored⟩ := entry
    by_cases same : first = key
    · subst same
      by_cases here : first = other
      · simp [alterEntries, here]
      · simp [alterEntries, here, Ne.symm here]
    · by_cases here : first = other
      · subst here
        simp [alterEntries, same]
      · simpa [alterEntries, same, here] using ih

theorem get?_insert (m : OrderedMap κ ν) (key other : κ) (value : ν) :
    (m.insert key value).get? other = if other = key then some value else m.get? other :=
  m.get?_alter key other fun _ => value

/-- Storing what is stored already changes nothing. -/
theorem insert_of_get? (m : OrderedMap κ ν) {key : κ} {value : ν} (found : m.get? key = some value) :
    m.insert key value = m := by
  obtain ⟨entries⟩ := m
  simp only [insert, alter, get?, OrderedMap.mk.injEq] at found ⊢
  induction entries with
  | nil => cases found
  | cons entry rest ih =>
    obtain ⟨first, stored⟩ := entry
    by_cases same : first = key
    · simp only [List.find?_cons, same, decide_true, Option.map_some, Option.some.injEq] at found
      simp [alterEntries, same, found]
    · simp only [List.find?_cons, same, decide_false] at found
      simp [alterEntries, same, ih found]

/-- What a map holds after an insertion is the inserted value or was there before. -/
theorem mem_insert {m : OrderedMap κ ν} {key : κ} {value : ν} {entry : κ × ν}
    (member : entry ∈ (m.insert key value).entries) : entry.2 = value ∨ entry ∈ m.entries := by
  obtain ⟨entries⟩ := m
  simp only [insert, alter] at member ⊢
  induction entries with
  | nil => exact .inl (congrArg Prod.snd (List.mem_singleton.mp member))
  | cons first rest ih =>
    rw [alterEntries] at member
    by_cases same : first.1 = key
    · rw [if_pos same] at member
      rcases List.mem_cons.mp member with rfl | member
      · exact .inl rfl
      · exact .inr (List.mem_cons_of_mem _ member)
    · rw [if_neg same] at member
      rcases List.mem_cons.mp member with rfl | member
      · exact .inr (List.mem_cons_self ..)
      · exact (ih member).imp_right (List.mem_cons_of_mem _)

/-- A key that is there keeps its place. -/
theorem keys_alter_of_mem {m : OrderedMap κ ν} {key : κ} (member : key ∈ m.keys)
    (change : Option ν → ν) : (m.alter key change).keys = m.keys := by
  obtain ⟨entries⟩ := m
  simp only [alter, keys] at member ⊢
  induction entries with
  | nil => cases member
  | cons entry rest ih =>
    obtain ⟨first, stored⟩ := entry
    by_cases same : first = key
    · simp [alterEntries, same]
    · rcases List.mem_cons.mp member with here | member
      · exact absurd here.symm same
      · simp [alterEntries, same, ih member]

/-- What is stored under a new key goes to the end. -/
theorem alter_of_notMem {entries : List (κ × ν)} {key : κ} (fresh : key ∉ entries.map (·.1))
    (change : Option ν → ν) : alter ⟨entries⟩ key change = ⟨entries ++ [(key, change none)]⟩ := by
  simp only [alter, OrderedMap.mk.injEq]
  induction entries with
  | nil => rfl
  | cons entry rest ih =>
    simp only [List.map_cons, List.mem_cons, not_or] at fresh
    simp [alterEntries, Ne.symm fresh.1, ih fresh.2]

theorem nodup_keys_alter {m : OrderedMap κ ν} (distinct : m.keys.Nodup) (key : κ)
    (change : Option ν → ν) : (m.alter key change).keys.Nodup := by
  by_cases member : key ∈ m.keys
  · rw [keys_alter_of_mem member]
    exact distinct
  · have appended : (m.alter key change).keys = m.keys ++ [key] := by
      rw [alter_of_notMem member, keys, List.map_append]
      rfl
    rw [appended, ← List.concat_eq_append]
    exact distinct.concat member

theorem ofList_append (entries : List (κ × ν)) (entry : κ × ν) :
    ofList (entries ++ [entry]) = (ofList entries).insert entry.1 entry.2 := by
  simp [ofList]

/-- The map of a list has no key twice, whatever the list repeats. -/
theorem nodup_keys_ofList (entries : List (κ × ν)) : (ofList entries).keys.Nodup := by
  induction entries using List.reverseRecOn with
  | nil => exact List.nodup_nil
  | append_singleton front entry ih =>
    rw [ofList_append]
    exact nodup_keys_alter ih entry.1 fun _ => entry.2

/-- A list in which no key repeats is the list of the entries of its map. -/
theorem ofList_of_nodup {entries : List (κ × ν)} (distinct : (entries.map (·.1)).Nodup) :
    ofList entries = ⟨entries⟩ := by
  induction entries using List.reverseRecOn with
  | nil => rfl
  | append_singleton front entry ih =>
    rw [List.map_append, List.nodup_append] at distinct
    have fresh : entry.1 ∉ front.map (·.1) := by
      intro member
      exact distinct.2.2 entry.1 member entry.1 (List.mem_singleton_self _) rfl
    rw [ofList_append, ih distinct.1, insert, alter_of_notMem fresh]

/-- The map with every value changed. -/
theorem get?_mapValues (m : OrderedMap κ ν) (change : ν → ν) (key : κ) :
    (⟨m.entries.map fun (k, v) => (k, change v)⟩ : OrderedMap κ ν).get? key =
      (m.get? key).map change := by
  obtain ⟨entries⟩ := m
  simp only [get?]
  induction entries with
  | nil => rfl
  | cons entry rest ih =>
    by_cases same : entry.1 = key
    · simp [same]
    · simpa [same] using ih

end OrderedMap

end ScriptFlow
