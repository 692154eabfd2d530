import Mathlib
import ArcLength.PathData.Token
import ArcLength.Path.Element
import ArcLength.Proofs.Spelling

/-!
# Words of path data

Elements are written with absolute commands as words, which are command letters and coordinates. A
text writes words with spaces around them, and with at least one between two coordinates; a letter
may touch what stands beside it. The tokens of such a text are its words.
-/

namespace ArcLength.PathData

open Decimal (Numeral EndsNumeral)

inductive Word (α : Type) where
  | command (c : Command)
  | coordinate (x : α)

variable {α : Type}

def pointWords (p : Point α) : List (Word α) := [.coordinate p.x, .coordinate p.y]

/-- The command that draws an element. -/
def commandOf : Element α → Command
  | .moveTo _ => .moveTo
  | .lineTo _ => .lineTo
  | .quadTo _ _ => .quadTo
  | .cubicTo _ _ _ => .cubicTo
  | .close => .closePath

/-- An element in words: its command and the coordinates of its points. -/
def elementWords (e : Element α) : List (Word α) :=
  .command (commandOf e) :: e.points.flatMap pointWords

/-- Text that is set off from a coordinate before it. -/
def SetOff (text : List Char) : Prop :=
  ∀ c ∈ text.head?, c = ' ' ∨ ∃ command : Command, c = command.letter

variable [Scalar α]

inductive Writes : List (Word α) → List Char → Prop where
  | done : Writes [] []
  | space {words : List (Word α)} {text : List Char} :
    Writes words text → Writes words (' ' :: text)
  | command {words : List (Word α)} {text : List Char} (c : Command) :
    Writes words text → Writes (.command c :: words) (c.letter :: text)
  | coordinate {words : List (Word α)} {text : List Char} (n : Numeral) {x : α} :
    Scalar.ofDecimal n.toDecimal = x → SetOff text → Writes words text →
      Writes (.coordinate x :: words) (n.text ++ text)

/-- What a token says of a word. -/
def Token.Stands : Token → Word α → Prop
  | .letter c relative, .command c' => c = c' ∧ relative = false
  | .value d, .coordinate x => Scalar.ofDecimal d = x
  | _, _ => False

theorem isDigit_letter (c : Command) : c.letter.isDigit = false := by
  cases c <;> rfl

theorem ofLetter?_letter (c : Command) : Command.ofLetter? c.letter = some (c, false) := by
  cases c <;> rfl

theorem setOff_nil : SetOff [] := by
  simp [SetOff]

theorem setOff_space (text : List Char) : SetOff (' ' :: text) := by
  simp [SetOff]

theorem setOff_letter (c : Command) (text : List Char) : SetOff (c.letter :: text) := by
  intro d hd
  exact Or.inr ⟨c, (Option.some.inj hd).symm⟩

theorem SetOff.endsNumeral {text : List Char} (h : SetOff text) : EndsNumeral text := by
  have hhead : ∀ c ∈ text.head?, c.isDigit = false ∧ (c == '.') = false ∧
      (c == 'e' || c == 'E') = false := by
    intro c hc
    rcases h c hc with rfl | ⟨command, rfl⟩
    · decide
    · cases command <;> decide
  exact ⟨fun c hc => (hhead c hc).1, fun c hc => (hhead c hc).2.1, fun c hc => (hhead c hc).2.2⟩

theorem toUpper_of_isDigit {c : Char} (h : c.isDigit = true) : c.toUpper = c := by
  have hle : c.val ≤ '9'.val := of_decide_eq_true (Bool.and_eq_true_iff.mp h).2
  unfold Char.toUpper
  split
  · rename_i hlower
    exact absurd (UInt32.le_trans hlower.1 hle) (by decide)
  · rfl

theorem ofLetter?_of_isDigit {c : Char} (h : c.isDigit = true) : Command.ofLetter? c = none := by
  have hnone : Command.all.find? (fun command => command.letter == c) = none := by
    refine List.find?_eq_none.mpr ?_
    intro command _ hletter
    rw [← eq_of_beq hletter, isDigit_letter] at h
    exact absurd h (by simp)
  rw [Command.ofLetter?, toUpper_of_isDigit h, hnone]
  rfl

/-- No numeral begins with a letter of a command. -/
theorem exists_text_eq (n : Numeral) :
    ∃ c rest, n.text = c :: rest ∧ Command.ofLetter? c = none := by
  unfold Numeral.text
  cases n.sign with
  | plus => exact ⟨'+', _, rfl, rfl⟩
  | minus => exact ⟨'-', _, rfl, rfl⟩
  | unwritten =>
      cases hwhole : n.whole with
      | cons c digits =>
          exact ⟨c, _, rfl, ofLetter?_of_isDigit (n.isDigit_whole c (by simp [hwhole]))⟩
      | nil =>
          cases hfraction : n.fraction with
          | cons c digits => exact ⟨'.', _, rfl, rfl⟩
          | nil => exact absurd (by rw [hwhole, hfraction]; rfl) n.ne_nil

theorem scan_space (rest : List Char) :
    Token.scan .values (' ' :: rest) = Token.scan .values rest := by
  have hletter : Command.ofLetter? ' ' = none := rfl
  have hread : Decimal.read? (' ' :: rest) = none := rfl
  rw [Token.scan, hletter]
  dsimp only
  split
  · rename_i h
    rw [hread] at h
    cases h
  · rfl

theorem scan_letter (c : Command) (rest : List Char) :
    Token.scan .values (c.letter :: rest) = .letter c false :: Token.scan (.after c) rest := by
  rw [Token.scan, ofLetter?_letter]

theorem scan_numeral (n : Numeral) {rest : List Char} (hrest : SetOff rest) :
    Token.scan .values (n.text ++ rest) = .value n.toDecimal :: Token.scan .values rest := by
  have hread := n.read?_text hrest.endsNumeral
  obtain ⟨c, tail, htext, hletter⟩ := exists_text_eq n
  rw [htext, List.cons_append] at hread ⊢
  rw [Token.scan, hletter]
  dsimp only
  split
  · rename_i h
    rw [hread] at h
    cases h
    rfl
  · rename_i h
    rw [hread] at h
    cases h

/-- **The tokens of a text are the words that it writes.** -/
theorem scan_of_writes {words : List (Word α)} {text : List Char} (h : Writes words text)
    (harc : Word.command .arcTo ∉ words) :
    List.Forall₂ Token.Stands (Token.scan .values text) words := by
  induction h with
  | done =>
      rw [Token.scan]
      exact .nil
  | space _ ih =>
      rw [scan_space]
      exact ih harc
  | @command words text c _ ih =>
      rw [List.mem_cons, not_or] at harc
      obtain ⟨hc, hwords⟩ := harc
      have hmode : Mode.after c = .values := by
        cases c with
        | arcTo => exact absurd rfl hc
        | _ => rfl
      rw [scan_letter, hmode]
      exact .cons ⟨rfl, rfl⟩ (ih hwords)
  | coordinate n hx hrest _ ih =>
      rw [scan_numeral n hrest]
      exact .cons hx (ih fun hmem => harc (List.mem_cons_of_mem _ hmem))

end ArcLength.PathData
