import ScriptFlow.Json.Decoder
import ScriptFlow.Settings.Basic

/-!
Reading settings. Two formats can hold them, and what is asked of a format is little: truth values,
texts, numbers, lists, records and bare tags. Settings are read from any format that answers these
questions. A field that is absent takes its default; one that is present has to be of its type.
-/

namespace ScriptFlow

/-- What settings ask of a data format. -/
class DataFormat (ν : Type) where
  /-- A truth value. -/
  bool? : ν → Option Bool
  /-- A text. -/
  text? : ν → Option String
  /-- A natural number of at most 64 bits. -/
  word? : ν → Option Nat
  /-- A number, rounded to single precision. -/
  single? : ν → Option Single
  /-- The items of a list. -/
  items? : ν → Option (List ν)
  /-- The fields of a record under the given names, in their order, absent ones as `none`. -/
  fields? : List String → ν → Option (List (Option ν))
  /-- The tag of a variant without payload. -/
  tag? : ν → Option String

instance : DataFormat Json where
  bool? := Json.bool?
  text? := Json.text?
  word? := Json.word? 64
  single? := Json.single?
  items? json := (json.items? Json.nestingLimit).map (·.2)
  fields? names json := (json.fields? names Json.nestingLimit).map (·.2)
  tag? := Json.unitVariant? Json.nestingLimit

section Reading

variable {ν : Type} [DataFormat ν]

open DataFormat

/-- A field with a default. -/
def fieldOr {α : Type} (default : α) (read : ν → Option α) : Option ν → Option α
  | none => some default
  | some value => read value

/-- A list of texts. -/
def texts? (value : ν) : Option (List String) := (items? value).bind (·.mapM text?)

/-- A graph mode under its name in a settings file. -/
def GraphMode.ofData? (value : ν) : Option GraphMode :=
  (tag? value).bind (Json.ofTag? GraphMode.all GraphMode.tag)

/-- Settings for decoding. -/
def DecodeSettings.ofData? (value : ν) : Option DecodeSettings :=
  let default : DecodeSettings := {}
  match fields? ["mode", "fold_tracepoints", "fold_jumps", "latent_functions", "dispatch_prefix"]
      value with
  | some [mode, foldTracepoints, foldJumps, latentFunctions, dispatchStart] => do
    return {
      mode := ← fieldOr default.mode GraphMode.ofData? mode
      foldTracepoints := ← fieldOr default.foldTracepoints bool? foldTracepoints
      foldJumps := ← fieldOr default.foldJumps bool? foldJumps
      latentFunctions := ← fieldOr default.latentFunctions texts? latentFunctions
      dispatchStart := ← fieldOr default.dispatchStart text? dispatchStart }
  | _ => none

/-- Settings for layout. -/
def LayoutSettings.ofData? (value : ν) : Option LayoutSettings :=
  let default : LayoutSettings := {}
  match fields? ["enabled", "engine_paths", "timeout_ms", "scale_x", "scale_y"] value with
  | some [enabled, enginePaths, timeoutMs, scaleX, scaleY] => do
    return {
      enabled := ← fieldOr default.enabled bool? enabled
      enginePaths := ← fieldOr default.enginePaths texts? enginePaths
      timeoutMs := ← fieldOr default.timeoutMs word? timeoutMs
      scaleX := ← fieldOr default.scaleX single? scaleX
      scaleY := ← fieldOr default.scaleY single? scaleY }
  | _ => none

/-- All settings. -/
def Settings.ofData? (value : ν) : Option Settings :=
  match fields? ["decode", "layout"] value with
  | some [decode, layout] => do
    return {
      decode := ← fieldOr {} DecodeSettings.ofData? decode
      layout := ← fieldOr {} LayoutSettings.ofData? layout }
  | _ => none

end Reading

end ScriptFlow
