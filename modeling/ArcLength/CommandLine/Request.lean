import ArcLength.CommandLine.Settings

/-!
# Requests on the command line

The words of the command line are dealt out to the path data and the options, from left to right.
The first fault ends this; words that nothing takes are a fault only if there is no other.
-/

namespace ArcLength.CommandLine

/-- What has been dealt out so far. -/
structure Intake where
  settings : Settings
  data : Option String
  extras : List String
  /-- Whether help was asked for, which ends everything. -/
  helped : Bool

def Intake.switch (i : Intake) (flag : Flag) : Intake :=
  if flag == .help then { i with helped := true }
  else { i with settings := i.settings.withSwitch flag }

/-- The options run together in one argument: a short one and those that the letters after it name.
A letter that names none would begin a value. -/
def runTogether (flag : Flag) : List Char → Except UsageError (List Flag)
  | [] => .ok [flag]
  | c :: rest =>
    match Flag.ofSpelling? (String.ofList ['-', c]) with
    | some next => do return flag :: (← runTogether next rest)
    | none => .error (.ignoredValue flag (String.ofList (c :: rest)))

/-- Takes an option that takes no value, with what is attached to it. -/
def Intake.takeSwitch (i : Intake) (flag : Flag) (long : Bool) (attached : Option String) :
    Except UsageError Intake :=
  match attached with
  | none => .ok (i.switch flag)
  | some text =>
    if long || text.isEmpty then .error (.ignoredValue flag text)
    else do return (← runTogether flag text.toList).foldl Intake.switch i

/-- Takes a positional, which is the path data if there is none yet. -/
def Intake.takePositional (i : Intake) (text : String) : Intake :=
  match i.data with
  | none => { i with data := some text }
  | some _ => { i with extras := i.extras ++ [text] }

/-- An argument that has come to no use. -/
def Word.leftOver : Word → List String
  | .positional text => [text]
  | .separator => ["--"]
  | .unknown text => [text]
  | .option _ _ _ => []

/-- Takes the words after the last option. A double dash next to the path data goes with it. -/
def Intake.takeRest (i : Intake) (words : List Word) : Intake :=
  match i.data, words with
  | none, .separator :: .positional text :: rest =>
    { i with data := some text, extras := i.extras ++ rest.flatMap Word.leftOver }
  | none, .positional text :: .separator :: rest =>
    { i with data := some text, extras := i.extras ++ rest.flatMap Word.leftOver }
  | none, .positional text :: rest =>
    { i with data := some text, extras := i.extras ++ rest.flatMap Word.leftOver }
  | _, rest => { i with extras := i.extras ++ rest.flatMap Word.leftOver }

/-- Whether a word starts with an option, known or not. -/
def Word.isOption : Word → Bool
  | .option _ _ _ => true
  | .unknown _ => true
  | _ => false

/-- Takes words from left to right until help is asked for. -/
def Intake.take (i : Intake) (words : List Word) : Except UsageError Intake :=
  if i.helped || !words.any Word.isOption then .ok (i.takeRest words)
  else
    match words with
    | [] => .ok i
    | .unknown text :: rest => ({ i with extras := i.extras ++ [text] } : Intake).take rest
    | .option flag long attached :: rest =>
      if !flag.takesValue then do
        let i ← i.takeSwitch flag long attached
        i.take rest
      else
        match attached with
        | some text => do
          let settings ← i.settings.withAttached flag text
          ({ i with settings } : Intake).take rest
        | none =>
          match rest with
          | .positional text :: rest => do
            let settings ← i.settings.withValue flag text
            ({ i with settings } : Intake).take rest
          | _ => .error (.missingValue flag)
    | .positional text :: rest => (i.takePositional text).take rest
    | .separator :: rest => i.take rest
termination_by words.length

inductive Request where
  | help
  | measure (d : String) (s : Settings)

def Request.ofArguments (arguments : List String) : Except UsageError Request := do
  let words ← (Word.ofArguments arguments).mapError .ambiguous
  let intake ← Intake.take ⟨.default, none, [], false⟩ words
  if intake.helped then return .help
  match intake.data with
  | none => throw .missingData
  | some d =>
    if intake.extras.isEmpty then return .measure d intake.settings
    else throw (.unrecognized intake.extras)

end ArcLength.CommandLine
