import Mathlib.Tactic.Tauto
import ArcLength.PathData
import ArcLength.Proofs.Results

/-!
# Closes before any move

A cursor is marked as unanchored by the first close that no move precedes, and by nothing else. So
path data fails in a way that is no rejection exactly if it can be carried out to its end and has
such a close.
-/

namespace ArcLength.PathData

namespace Instruction

def isMove : Instruction → Bool
  | .moveTo _ _ _ => true
  | _ => false

/-- Some close comes before every move. -/
def ClosesFirst (instructions : List Instruction) : Prop :=
  ∃ before after, instructions = before ++ .closePath :: after ∧ ∀ i ∈ before, i.isMove = false

theorem not_closesFirst_nil : ¬ ClosesFirst [] := by
  rintro ⟨before, after, heq, -⟩
  simp at heq

theorem closesFirst_cons {i : Instruction} {rest : List Instruction} :
    ClosesFirst (i :: rest) ↔ i = .closePath ∨ i.isMove = false ∧ ClosesFirst rest := by
  constructor
  · rintro ⟨before, after, heq, hbefore⟩
    cases before with
    | nil => exact Or.inl (List.cons.inj heq).1
    | cons j before =>
        obtain ⟨rfl, hrest⟩ := List.cons.inj heq
        exact Or.inr ⟨hbefore i List.mem_cons_self, before, after, hrest,
          fun k hk => hbefore k (List.mem_cons_of_mem i hk)⟩
  · rintro (rfl | ⟨hmove, before, after, rfl, hbefore⟩)
    · exact ⟨[], rest, rfl, by simp⟩
    · refine ⟨i :: before, after, rfl, ?_⟩
      intro k hk
      rcases List.mem_cons.mp hk with rfl | hmem
      · exact hmove
      · exact hbefore k hmem

end Instruction

namespace Cursor

variable {α : Type} [Scalar α] {c c' : Cursor α} {i : Instruction}
  {segment? : Option (Segment α)}

/-- A pen without a position has lost it to a close. -/
def Traceable (c : Cursor α) : Prop := c.position = none → c.unanchored = true

/-- Whatever draws leaves the pen at an end and everything else but the handle as it was. -/
theorem exists_arrive_of_step (hmove : i.isMove = false) (hclose : i ≠ .closePath)
    (h : c.step i = .ok (c', segment?)) : ∃ finish handle, c' = c.arrive finish handle := by
  cases i with
  | moveTo relative x y => simp [Instruction.isMove] at hmove
  | closePath => exact absurd rfl hclose
  | arcTo relative rx ry rotation large sweep x y =>
      repeat obtain ⟨_, -, h⟩ := exists_of_bind_eq_ok h
      -- an arc without a radius is a line; one that ends where it starts is rejected
      split at h
      · cases h
        exact ⟨_, _, rfl⟩
      · split at h
        · cases h
        · obtain ⟨_, -, h⟩ := exists_of_bind_eq_ok h
          cases h
          exact ⟨_, _, rfl⟩
  | _ =>
      -- the others read their values, place their points and go to the last of them
      repeat obtain ⟨_, -, h⟩ := exists_of_bind_eq_ok h
      cases h
      exact ⟨_, _, rfl⟩

/-- What a step does to the anchor: only a move sets the start of a subpath, and only a close
without one marks the data. -/
theorem anchor_of_step (hc : c.Traceable) (h : c.step i = .ok (c', segment?)) :
    c'.Traceable ∧ (c'.subpathStart = none ↔ c.subpathStart = none ∧ i.isMove = false) ∧
      (c'.unanchored = true ↔
        c.unanchored = true ∨ c.subpathStart = none ∧ i = .closePath) := by
  by_cases hclose : i = .closePath
  · subst hclose
    obtain rfl : c.close.1 = c' := congrArg Prod.fst (Except.ok.inj h)
    cases hposition : c.position with
    | none =>
        have hmark : c.unanchored = true := hc hposition
        cases hstart : c.subpathStart <;>
          simp [close, hposition, hstart, Traceable, arrive, hmark, Instruction.isMove]
    | some p =>
        cases hstart : c.subpathStart <;>
          simp [close, hposition, hstart, Traceable, arrive, Instruction.isMove]
  · cases hmove : i.isMove with
    | true =>
        cases i with
        | moveTo relative x y =>
            obtain ⟨_, -, h⟩ := exists_of_bind_eq_ok h
            obtain ⟨p, -, h⟩ := exists_of_bind_eq_ok h
            cases h
            simp [Traceable]
        | _ => simp [Instruction.isMove] at hmove
    | false =>
        obtain ⟨finish, handle, rfl⟩ := exists_arrive_of_step hmove hclose h
        simp [Traceable, arrive, hclose]

/-- The mark after a run tells whether a close came before every move. -/
theorem unanchored_of_run {instructions : List Instruction} {segments : List (Segment α)}
    (hc : c.Traceable) (h : c.run instructions = .ok (segments, c')) :
    c'.unanchored = true ↔
      c.unanchored = true ∨ c.subpathStart = none ∧ Instruction.ClosesFirst instructions := by
  induction instructions generalizing c segments with
  | nil =>
      cases h
      simp [Instruction.not_closesFirst_nil]
  | cons i rest ih =>
      obtain ⟨⟨next, _⟩, hstep, h⟩ := exists_of_bind_eq_ok h
      obtain ⟨⟨_, _⟩, hrest, h⟩ := exists_of_bind_eq_ok h
      cases h
      obtain ⟨hnext, hstart, hmark⟩ := anchor_of_step hc hstep
      rw [ih hnext hrest, hstart, hmark, Instruction.closesFirst_cons]
      tauto

end Cursor

/-- Tokens that are dealt out to instructions which can all be carried out, with a close before
every move. -/
def ClosesBeforeMove (α : Type) [Scalar α] (tokens : List Token) : Prop :=
  ∃ instructions, Instruction.ofTokens tokens = (instructions, none) ∧
    (∃ drawn, Cursor.run (α := α) .initial instructions = .ok drawn) ∧
    Instruction.ClosesFirst instructions

variable {α : Type} [Scalar α]

theorem segments_eq_unanchoredClose_iff {tokens : List Token} :
    segments (α := α) tokens = .error .unanchoredClose ↔ ClosesBeforeMove α tokens := by
  have hinitial : (Cursor.initial : Cursor α).Traceable := by
    simp [Cursor.Traceable, Cursor.initial]
  rcases hdeal : Instruction.ofTokens tokens with ⟨instructions, shortage?⟩
  rw [segments, ClosesBeforeMove, hdeal]
  cases hrun : Cursor.run (α := α) .initial instructions with
  | error r => simp [hrun]
  | ok drawn =>
      obtain ⟨segments, cursor⟩ := drawn
      have hmark : cursor.unanchored = true ↔ Instruction.ClosesFirst instructions := by
        simpa [Cursor.initial] using Cursor.unanchored_of_run hinitial hrun
      cases shortage? with
      | some s => simp [hrun]
      | none => simp [hrun, hmark]

/-- Path data fails in a way that is no rejection exactly if it closes before it moves. -/
theorem ofData_eq_unanchoredClose_iff {d : String} :
    Path.ofData (α := α) d = .error .unanchoredClose ↔
      ClosesBeforeMove α (Token.ofText d) := by
  rw [← segments_eq_unanchoredClose_iff, Path.ofData]
  cases segments (α := α) (Token.ofText d) <;> simp [bind, Except.bind, pure, Except.pure]

end ArcLength.PathData
