import ScriptFlow.Shell.Builtin

/-!
Redirected streams. The streams of a command are as before after it, unless the command changes them
for the rest of the script.
-/

namespace ScriptFlow.Shell

/-- The stream that a word names after the redirection of a stream to another. -/
def sameSink (state : State) (word : List Char) : Option Sink :=
  match word with
  | ['1'] => some state.output
  | ['2'] => some state.messages
  | ['-'] => some .nowhere
  | word =>
    (digitsValue? 10 word).bind fun stream => (state.others.find? (·.1 = stream)).map (·.2)

/-- The sink that a file is, emptied first unless output is added to its end. -/
def fileSink? (state : State) (path : List Char) (adds : Bool) : Option (Sink × State) :=
  match textOf path with
  | "/dev/stdout" => some (state.output, state)
  | "/dev/stderr" => some (state.messages, state)
  | "/dev/null" => some (.nowhere, state)
  | text =>
    let kept := if adds then (state.tree.read text).toOption.getD "" else ""
    match state.tree.write text kept with
    | .ok tree => some (.file path, { state with tree })
    | .error _ => none

/-- The state with a stream going elsewhere. -/
def withSink (state : State) (stream : Nat) (sink : Sink) : State :=
  if stream = 1 then { state with output := sink }
  else if stream = 2 then { state with messages := sink }
  else { state with others := (stream, sink) :: state.others.filter (·.1 ≠ stream) }

/-- The state with another input. -/
def withInput (state : State) (input : List Char) : State :=
  { state with input, aside := some state.unread }

/-- The state with a stream redirected, if that can be done. -/
def redirectOne? (host : Host) (redirect : Redirect) (state : State) : Option State :=
  match expandOne host redirect.word state with
  | (none, _) => none
  | (some word, state) =>
    match redirect.kind with
    | .source =>
      (contents? state.tree state.input word).map fun input =>
        if redirect.stream = 0 then withInput state input else state
    | .document => some (if redirect.stream = 0 then withInput state word else state)
    | .target =>
      (fileSink? state word false).map fun (sink, state) => withSink state redirect.stream sink
    | .append =>
      (fileSink? state word true).map fun (sink, state) => withSink state redirect.stream sink
    | .same =>
      if redirect.stream = 0 then some (if word = ['-'] then withInput state [] else state)
      else (sameSink state word).map (withSink state redirect.stream)

/-- The state with streams redirected one after the other, if that can be done. -/
def redirectAll? (host : Host) : List Redirect → State → Option State
  | [], state => some state
  | redirect :: rest, state => (redirectOne? host redirect state).bind (redirectAll? host rest)

/-- Where a stream goes. -/
def sinkOf (state : State) (stream : Nat) : Sink :=
  if stream = 1 then state.output
  else if stream = 2 then state.messages
  else ((state.others.find? (·.1 = stream)).map (·.2)).getD .nowhere

/-- The state with redirected streams as before. -/
def restoreStreams (before : State) : List Redirect → State → State
  | [], state => state
  | redirect :: rest, state =>
    let state := if redirect.stream = 0 then
        { state with input := before.input, aside := before.aside }
      else withSink state redirect.stream (sinkOf before redirect.stream)
    restoreStreams before rest state

/-- An action with redirected streams, which are as before when it is over. If the script ends with
it, the streams are given up. -/
def withStreams (host : Host) (last : Bool) (redirects : List Redirect) (action : Action) :
    Action := fun before =>
  match redirectAll? host redirects before with
  | none => goOnWith 2 before
  | some state =>
    let keeps := redirects.any fun redirect => sinkOf before redirect.stream = .report
    let (flow, after) :=
      action (if last then state.release else { state with isKept := before.isKept || keeps })
    (flow, restoreStreams before redirects { after with isKept := before.isKept })

end ScriptFlow.Shell
