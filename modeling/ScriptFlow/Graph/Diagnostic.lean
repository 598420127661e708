import ScriptFlow.Number.Numeral

/-!
Diagnostics: what was found wrong or missing while a graph was built. None of them stops the
construction; each is kept with the graph.
-/

namespace ScriptFlow

/-- How much a diagnostic matters. -/
inductive Severity where
  | warning
  | info
  deriving DecidableEq

/-- The word for a severity. -/
def Severity.text : Severity → String
  | .warning => "warning"
  | .info => "info"

/-- What a diagnostic is about. -/
inductive DiagnosticCode where
  /-- A pin continues at an offset where nothing starts. -/
  | danglingOffset
  /-- A pin continues at an expression that is no instruction of its own. -/
  | noExecutionNode
  /-- Folding an instruction would make the flow chase its own tail. -/
  | aliasCycle
  /-- A pin was to be connected twice. -/
  | pinTaken
  /-- A latent call does not say where to resume. -/
  | malformedLatent
  /-- A shared body is entered at a negative offset. -/
  | negativeEntry
  /-- An operation has no shape of its own. -/
  | unmodeled
  deriving DecidableEq

namespace DiagnosticCode

/-- The name of a code. -/
def text : DiagnosticCode → String
  | .danglingOffset => "jump/dangling-offset"
  | .noExecutionNode => "jump/no-execution-node"
  | .aliasCycle => "jump/alias-cycle"
  | .pinTaken => "jump/pin-taken"
  | .malformedLatent => "call/malformed-latent"
  | .negativeEntry => "entry/negative-offset"
  | .unmodeled => "node/unmodeled"

/-- Every code. -/
def all : List DiagnosticCode :=
  [.danglingOffset, .noExecutionNode, .aliasCycle, .pinTaken, .malformedLatent, .negativeEntry,
    .unmodeled]

end DiagnosticCode

/-- Something found while a graph was built. -/
structure Diagnostic where
  /-- What it is about. -/
  code : DiagnosticCode
  /-- What happened, in words. -/
  message : String
  /-- The offset it refers to, if there is one. -/
  offset : Option Nat
  /-- How much it matters. -/
  severity : Severity
  deriving DecidableEq

namespace Diagnostic

/-- The diagnostic as one line. -/
def text (d : Diagnostic) : String :=
  let place := match d.offset with
    | some offset => " @" ++ natText offset
    | none => ""
  d.severity.text ++ " [" ++ d.code.text ++ "]" ++ place ++ ": " ++ d.message

/-- A pin of a node, as messages name it. -/
def pinOf (pin : String) (node : Nat) : String := "pin '" ++ pin ++ "' of node " ++ natText node

def danglingOffset (pin : String) (node target : Nat) : Diagnostic where
  code := .danglingOffset
  message := pinOf pin node ++ " targets offset " ++ natText target ++ " where no expression starts"
  offset := some target
  severity := .warning

def noExecutionNode (pin : String) (node : Nat) (token : String) (target : Nat) : Diagnostic where
  code := .noExecutionNode
  message := pinOf pin node ++ " targets " ++ token ++ " at offset " ++ natText target ++
    " which has no execution node"
  offset := some target
  severity := .warning

def pinTaken (pin : String) (node target : Nat) : Diagnostic where
  code := .pinTaken
  message := pinOf pin node ++ " is already connected"
  offset := some target
  severity := .warning

def aliasCycle (source target : Nat) : Diagnostic where
  code := .aliasCycle
  message := "folding offset " ++ natText source ++ " into " ++ natText target ++
    " would loop; node kept"
  offset := some source
  severity := .warning

def malformedLatent (function : String) (offset : Nat) : Diagnostic where
  code := .malformedLatent
  message := "latent call " ++ function ++ " has no resume offset in its third argument"
  offset := some offset
  severity := .warning

def negativeEntry (function entry : String) (start : Int) : Diagnostic where
  code := .negativeEntry
  message := function ++ " enters " ++ entry ++ " at negative offset " ++ intText start
  offset := none
  severity := .warning

def unmodeledNode (token : String) (offset : Nat) : Diagnostic where
  code := .unmodeled
  message := "no node shape for " ++ token
  offset := some offset
  severity := .info

def unmodeledValue (token : String) : Diagnostic where
  code := .unmodeled
  message := "no value shape for " ++ token
  offset := none
  severity := .info

end Diagnostic

end ScriptFlow
