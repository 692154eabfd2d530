import ArcLength.CommandLine.Flag
import ArcLength.Text.Digit

/-!
# Words of the command line

Each argument is an option, possibly with a value attached, or a positional. Arguments after a
double dash are positional, and so is what starts with a dash but reads as a negative number or
holds a space.
-/

namespace ArcLength.CommandLine

inductive Word where
  | positional (text : String)
  | separator
  /-- An option with the text that is attached to it, after an equals sign or directly. -/
  | option (flag : Flag) (long : Bool) (attached : Option String)
  | unknown (text : String)
deriving DecidableEq, Repr

/-- A cut spelling that fits several options. -/
structure Ambiguity where
  written : String
  candidates : List String
deriving DecidableEq, Repr

def isLong (spelling : List Char) : Bool := spelling.take 2 == ['-', '-']

/-- A text up to its first equals sign, and the text after the sign if there is one. -/
def splitEquals (text : List Char) : List Char × Option (List Char) :=
  match text.dropWhile (· != '=') with
  | [] => (text, none)
  | _ :: value => (text.takeWhile (· != '='), some value)

/-- Whether a text is a minus sign and digits of any script, with a point before the last of them
or without. A line feed may follow. -/
def isNegativeNumber (text : List Char) : Bool :=
  let isDigit := fun c => (Text.digitValue? c).isSome
  let accepts := fun (body : List Char) =>
    match body.dropWhile isDigit with
    | [] => !body.isEmpty
    | '.' :: fraction => !fraction.isEmpty && fraction.all isDigit
    | _ => false
  match text with
  | '-' :: body => accepts body || (body.getLast? == some '\n' && accepts body.dropLast)
  | _ => false

/-- The spellings that a text with leading dash may be short for, each with its option and what is
attached to it. -/
def candidates (text : List Char) : List (String × Flag × Option String) :=
  if isLong text then
    let (stem, value?) := splitEquals text
    (spellings.filter fun entry => stem.isPrefixOf entry.1.toList).map fun entry =>
      (entry.1, entry.2, value?.map String.ofList)
  else
    spellings.filterMap fun entry =>
      if entry.1.toList == text.take 2 then
        some (entry.1, entry.2, some (String.ofList (text.drop 2)))
      else if text.isPrefixOf entry.1.toList then some (entry.1, entry.2, none)
      else none

/-- The option that a text spells in full, before an equals sign if there is one. -/
def exactOption? (text : List Char) : Option Word :=
  match Flag.ofSpelling? (String.ofList text) with
  | some flag => some (.option flag (isLong text) none)
  | none =>
    match splitEquals text with
    | (stem, some value) =>
      (Flag.ofSpelling? (String.ofList stem)).map fun flag =>
        .option flag (isLong stem) (some (String.ofList value))
    | (_, none) => none

/-- What an argument before any double dash is. -/
def Word.ofArgument (argument : String) : Except Ambiguity Word :=
  let text := argument.toList
  if text.head? != some '-' || text.length == 1 then .ok (.positional argument)
  else
    match exactOption? text with
    | some word => .ok word
    | none =>
      match candidates text with
      | [(spelling, flag, attached)] => .ok (.option flag (isLong spelling.toList) attached)
      | [] =>
        if isNegativeNumber text || text.contains ' ' then .ok (.positional argument)
        else .ok (.unknown argument)
      | several => .error ⟨argument, several.map Prod.fst⟩

def Word.ofArguments : List String → Except Ambiguity (List Word)
  | [] => .ok []
  | argument :: rest =>
    if argument == "--" then .ok (.separator :: rest.map .positional)
    else do
      let word ← Word.ofArgument argument
      let words ← Word.ofArguments rest
      return word :: words

end ArcLength.CommandLine
