import ArcLength.PathData.Token

/-!
# Instructions

An instruction is one use of a command with its values. The tokens after a letter are dealt out to
instructions in order; a token dealt out as a value may turn out to be a letter, which is noticed
when the value is read.
-/

namespace ArcLength.PathData

inductive Instruction where
  | moveTo (relative : Bool) (x y : Token)
  | closePath
  | lineTo (relative : Bool) (x y : Token)
  | horizontalTo (relative : Bool) (x : Token)
  | verticalTo (relative : Bool) (y : Token)
  | cubicTo (relative : Bool) (x₁ y₁ x₂ y₂ x y : Token)
  | smoothCubicTo (relative : Bool) (x₂ y₂ x y : Token)
  | quadTo (relative : Bool) (x₁ y₁ x y : Token)
  | smoothQuadTo (relative : Bool) (x y : Token)
  | arcTo (relative : Bool) (rx ry rotation large sweep x y : Token)
deriving DecidableEq, Repr

/-- Why tokens cannot be dealt out. -/
inductive Shortage where
  /-- Values with no command to repeat, `remaining` tokens before the end. -/
  | noCommand (remaining : Nat)
  /-- A command with fewer tokens after it than it takes. -/
  | missingValues (command : Command) (remaining : Nat)
deriving DecidableEq, Repr

namespace Instruction

/-- One use of a command with the tokens that follow; `none` if there are too few. -/
def take? (command : Command) (relative : Bool) (tokens : List Token) :
    Option (Instruction × List Token) :=
  match command, tokens with
  | .moveTo, x :: y :: rest => some (.moveTo relative x y, rest)
  | .closePath, rest => some (.closePath, rest)
  | .lineTo, x :: y :: rest => some (.lineTo relative x y, rest)
  | .horizontalTo, x :: rest => some (.horizontalTo relative x, rest)
  | .verticalTo, y :: rest => some (.verticalTo relative y, rest)
  | .cubicTo, x₁ :: y₁ :: x₂ :: y₂ :: x :: y :: rest =>
    some (.cubicTo relative x₁ y₁ x₂ y₂ x y, rest)
  | .smoothCubicTo, x₂ :: y₂ :: x :: y :: rest => some (.smoothCubicTo relative x₂ y₂ x y, rest)
  | .quadTo, x₁ :: y₁ :: x :: y :: rest => some (.quadTo relative x₁ y₁ x y, rest)
  | .smoothQuadTo, x :: y :: rest => some (.smoothQuadTo relative x y, rest)
  | .arcTo, rx :: ry :: rotation :: large :: sweep :: x :: y :: rest =>
    some (.arcTo relative rx ry rotation large sweep x y, rest)
  | _, _ => none

/-- A use of a command takes as many tokens as the command's arity says. -/
theorem length_of_take? {command : Command} {relative : Bool} {tokens rest : List Token}
    {i : Instruction} (h : take? command relative tokens = some (i, rest)) :
    rest.length + command.arity = tokens.length := by
  unfold take? at h
  split at h <;> simp_all [Command.arity]

/-- Deals tokens out to instructions. `pending` is the latest command, which values without a
letter repeat unless it takes none. -/
def deal (pending : Option (Command × Bool)) (tokens : List Token) :
    List Instruction × Option Shortage :=
  match tokens with
  | [] => ([], none)
  | .letter command relative :: rest =>
    match h : take? command relative rest with
    | none => ([], some (.missingValues command rest.length))
    | some (i, rest') =>
      have := length_of_take? h
      let later := deal (some (command.repeated, relative)) rest'
      (i :: later.1, later.2)
  | .value d :: rest =>
    match pending with
    | none => ([], some (.noCommand (rest.length + 1)))
    | some (command, relative) =>
      if harity : command.arity = 0 then ([], some (.noCommand (rest.length + 1)))
      else
        match h : take? command relative (.value d :: rest) with
        | none => ([], some (.missingValues command (rest.length + 1)))
        | some (i, rest') =>
          have := length_of_take? h
          let later := deal (some (command.repeated, relative)) rest'
          (i :: later.1, later.2)
termination_by tokens.length
decreasing_by all_goals (simp_all; omega)

def ofTokens (tokens : List Token) : List Instruction × Option Shortage := deal none tokens

end Instruction

end ArcLength.PathData
