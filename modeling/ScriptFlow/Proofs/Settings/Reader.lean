import ScriptFlow.Proofs.Collection.OrderedMap
import ScriptFlow.Proofs.Toml.Keys
import ScriptFlow.Settings.File

/-! What a settings file says. A field that a record has is read as its type and one that it does
not have takes its default, field by field and independently of the others: neither the order of
the keys nor a key that is no field makes a difference. -/
namespace ScriptFlow

variable {ν α : Type}

/-- What a record says about a field: what it has there is read, and a default stands in for what
it does not have. -/
inductive FieldHolds (default : α) (read : ν → Option α) : Option ν → α → Prop where
  | absent : FieldHolds default read none default
  | given {written : ν} {value : α} (reads : read written = some value) :
      FieldHolds default read (some written) value

theorem fieldOr_eq_some_iff {default value : α} {read : ν → Option α} {field : Option ν} :
    fieldOr default read field = some value ↔ FieldHolds default read field value := by
  cases field with
  | none =>
    constructor
    · rintro ⟨⟩
      exact .absent
    · intro states
      cases states
      rfl
  | some written =>
    constructor
    · exact fun reads => .given reads
    · intro states
      cases states with
      | given reads => exact reads

section Records

open DataFormat

variable [DataFormat ν] {field : String → Option ν} {record : ν}

/-- The settings for decoding that a record with the given fields states. -/
structure DecodeSettings.StatedBy (settings : DecodeSettings) (field : String → Option ν) :
    Prop where
  mode : FieldHolds .plain GraphMode.ofData? (field "mode") settings.mode
  foldTracepoints : FieldHolds false bool? (field "fold_tracepoints") settings.foldTracepoints
  foldJumps : FieldHolds false bool? (field "fold_jumps") settings.foldJumps
  latentFunctions :
    FieldHolds ["Delay", "RetriggerableDelay"] texts? (field "latent_functions")
      settings.latentFunctions
  dispatchStart :
    FieldHolds "ExecuteUbergraph" text? (field "dispatch_prefix") settings.dispatchStart

/-- The settings for layout that a record with the given fields states. -/
structure LayoutSettings.StatedBy (settings : LayoutSettings) (field : String → Option ν) :
    Prop where
  enabled : FieldHolds false bool? (field "enabled") settings.enabled
  enginePaths : FieldHolds ["bin/dot", "dot"] texts? (field "engine_paths") settings.enginePaths
  timeoutMs : FieldHolds 10000 word? (field "timeout_ms") settings.timeoutMs
  scaleX : FieldHolds (.ofInt 50) single? (field "scale_x") settings.scaleX
  scaleY : FieldHolds (.ofInt 60) single? (field "scale_y") settings.scaleY

/-- The settings that a record with the given fields states. -/
structure Settings.StatedBy (settings : Settings) (field : String → Option ν) : Prop where
  decode : FieldHolds {} DecodeSettings.ofData? (field "decode") settings.decode
  layout : FieldHolds {} LayoutSettings.ofData? (field "layout") settings.layout

theorem DecodeSettings.ofData?_eq_some_iff {settings : DecodeSettings}
    (fields : ∀ names, fields? names record = some (names.map field)) :
    DecodeSettings.ofData? record = some settings ↔ settings.StatedBy field := by
  simp only [DecodeSettings.ofData?, fields, List.map_cons, List.map_nil, Option.bind_eq_bind,
    Option.bind_eq_some_iff, Option.pure_def, Option.some.injEq, fieldOr_eq_some_iff]
  constructor
  · rintro ⟨_, mode, _, foldTracepoints, _, foldJumps, _, latentFunctions, _, dispatchStart, rfl⟩
    exact ⟨mode, foldTracepoints, foldJumps, latentFunctions, dispatchStart⟩
  · rintro ⟨mode, foldTracepoints, foldJumps, latentFunctions, dispatchStart⟩
    exact ⟨_, mode, _, foldTracepoints, _, foldJumps, _, latentFunctions, _, dispatchStart, rfl⟩

theorem LayoutSettings.ofData?_eq_some_iff {settings : LayoutSettings}
    (fields : ∀ names, fields? names record = some (names.map field)) :
    LayoutSettings.ofData? record = some settings ↔ settings.StatedBy field := by
  simp only [LayoutSettings.ofData?, fields, List.map_cons, List.map_nil, Option.bind_eq_bind,
    Option.bind_eq_some_iff, Option.pure_def, Option.some.injEq, fieldOr_eq_some_iff]
  constructor
  · rintro ⟨_, enabled, _, enginePaths, _, timeoutMs, _, scaleX, _, scaleY, rfl⟩
    exact ⟨enabled, enginePaths, timeoutMs, scaleX, scaleY⟩
  · rintro ⟨enabled, enginePaths, timeoutMs, scaleX, scaleY⟩
    exact ⟨_, enabled, _, enginePaths, _, timeoutMs, _, scaleX, _, scaleY, rfl⟩

theorem Settings.ofData?_eq_some_iff {settings : Settings}
    (fields : ∀ names, fields? names record = some (names.map field)) :
    Settings.ofData? record = some settings ↔ settings.StatedBy field := by
  simp only [Settings.ofData?, fields, List.map_cons, List.map_nil, Option.bind_eq_bind,
    Option.bind_eq_some_iff, Option.pure_def, Option.some.injEq, fieldOr_eq_some_iff]
  constructor
  · rintro ⟨_, decode, _, layout, rfl⟩
    exact ⟨decode, layout⟩
  · rintro ⟨decode, layout⟩
    exact ⟨_, decode, _, layout, rfl⟩

/-- Of a record, a reader sees what stands under the given names and nothing else. -/
def ReadsFields (names : List String) (read : ν → Option α) : Prop :=
  ∀ {record other : ν}, fields? names record = fields? names other → read record = read other

theorem DecodeSettings.ofData?_readsFields :
    ReadsFields ["mode", "fold_tracepoints", "fold_jumps", "latent_functions", "dispatch_prefix"]
      (DecodeSettings.ofData? : ν → Option DecodeSettings) := by
  intro record other same
  rw [DecodeSettings.ofData?, same, DecodeSettings.ofData?]

theorem LayoutSettings.ofData?_readsFields :
    ReadsFields ["enabled", "engine_paths", "timeout_ms", "scale_x", "scale_y"]
      (LayoutSettings.ofData? : ν → Option LayoutSettings) := by
  intro record other same
  rw [LayoutSettings.ofData?, same, LayoutSettings.ofData?]

theorem Settings.ofData?_readsFields :
    ReadsFields ["decode", "layout"] (Settings.ofData? : ν → Option Settings) := by
  intro record other same
  rw [Settings.ofData?, same, Settings.ofData?]

end Records

namespace Toml

variable {members others : List (String × Value)} {key : String}

theorem fields?_table (members : List (String × Value)) (names : List String) :
    DataFormat.fields? names (Value.table members) =
      some (names.map fun name => lookup? name members) := rfl

private theorem lookup?_perm (order : members.Perm others) (distinct : DistinctKeys members) :
    lookup? key members = lookup? key others := by
  have same : DistinctKeys others := (order.map _).nodup_iff.mp distinct
  refine Option.ext fun found => ?_
  exact (find?_key_iff distinct).trans (order.mem_iff.trans (find?_key_iff same).symm)

end Toml

open Toml

section Tables

variable {names : List String} {read : Value → Option α} {members others : List (String × Value)}
  {key : String}

/-- Where no key comes twice, the order of the keys makes no difference. -/
theorem ReadsFields.perm (reads : ReadsFields names read) (order : members.Perm others)
    (distinct : DistinctKeys members) : read (.table members) = read (.table others) := by
  refine reads ?_
  rw [fields?_table, fields?_table]
  exact congrArg some (List.map_congr_left fun _ _ => lookup?_perm order distinct)

/-- A key that is no field makes no difference. -/
theorem ReadsFields.passes_over (reads : ReadsFields names read) (value : Value)
    (other : key ∉ names) : read (.table ((key, value) :: members)) = read (.table members) := by
  refine reads ?_
  rw [fields?_table, fields?_table]
  refine congrArg some (List.map_congr_left fun name asked => ?_)
  have differs : key ≠ name := fun same => other (same ▸ asked)
  rw [lookup?, List.find?_cons_of_neg (by simpa using differs), lookup?]

end Tables

theorem DecodeSettings.ofData?_table {members : List (String × Value)}
    {settings : DecodeSettings} :
    DecodeSettings.ofData? (Value.table members) = some settings ↔
      settings.StatedBy fun key => lookup? key members :=
  DecodeSettings.ofData?_eq_some_iff (fields?_table members)

theorem LayoutSettings.ofData?_table {members : List (String × Value)}
    {settings : LayoutSettings} :
    LayoutSettings.ofData? (Value.table members) = some settings ↔
      settings.StatedBy fun key => lookup? key members :=
  LayoutSettings.ofData?_eq_some_iff (fields?_table members)

theorem Settings.ofData?_table {members : List (String × Value)} {settings : Settings} :
    Settings.ofData? (Value.table members) = some settings ↔
      settings.StatedBy fun key => lookup? key members :=
  Settings.ofData?_eq_some_iff (fields?_table members)

/-- A settings file is a table without a key that comes twice, and states the settings. -/
theorem Settings.read?_eq_some_iff {text : String} {settings : Settings} :
    Settings.read? text = some settings ↔
      ∃ members, Toml.read? text = some (.table members) ∧ DistinctKeys members ∧
        settings.StatedBy fun key => lookup? key members := by
  rw [Settings.read?, Option.bind_eq_some_iff]
  constructor
  · rintro ⟨value, document, states⟩
    obtain ⟨tidy, members, rfl⟩ := read?_tidy document
    cases tidy with
    | table distinct => exact ⟨members, document, distinct, Settings.ofData?_table.mp states⟩
  · rintro ⟨members, document, -, states⟩
    exact ⟨_, document, Settings.ofData?_table.mpr states⟩

/-- An empty file holds the defaults. -/
example : Settings.read? "" = some {} := by decide

end ScriptFlow
