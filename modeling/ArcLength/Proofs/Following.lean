import Mathlib
import ArcLength.PathData
import ArcLength.Proofs.Likeness
import ArcLength.Proofs.Significand
import ArcLength.Proofs.Subpaths
import ArcLength.Proofs.Words

/-!
# A cursor follows elements

The tokens that stand for the words of an element are dealt out as one instruction, and a cursor
carries it out as the element says. The points of the element are put together from their parts by
complex arithmetic, which gives each point back unless a part of it is infinite, no number or a
negative zero.
-/

namespace ArcLength

namespace Point

/-- A point whose coordinates are finite and not negative zeros. -/
structure IsPlain (p : Point Float) : Prop where
  isFinite : p.IsFinite
  x_ne : p.x ≠ -0
  y_ne : p.y ≠ -0

theorem IsPlain.ofParts_eq {p : Point Float} (h : p.IsPlain) : ofParts p.x p.y = p := by
  have hx : Binary64.Settled p.x := Binary64.settled_of_ne_neg_zero h.x_ne
  have hy : Binary64.Settled p.y := Binary64.settled_of_ne_neg_zero h.y_ne
  have hzero : (0 : Float) * 0 = 0 := by decide +kernel
  have hvanishes : Binary64.IsZero (p.y * 0 - 0) :=
    (Binary64.alike_sub_of_isZero Binary64.isZero_zero _).symm.isZero
      (Binary64.isZero_mul_zero h.isFinite.2)
  have hfirst : p.x + (p.y * 0 - 0 * 1) = p.x := by
    rw [Binary64.float_mul_one]
    exact hx.add_of_isZero hvanishes
  have hsecond : 0 + (p.y * 1 + 0 * 0) = p.y := by
    rw [Binary64.float_mul_one, hzero, hy.add_zero, hy.zero_add]
  exact Point.ext hfirst hsecond

theorem IsPlain.beq_self {p : Point Float} (h : p.IsPlain) : (p == p) = true :=
  (Alike.refl p).beq h.isFinite

end Point

namespace PathData

namespace Cursor

variable {α : Type} [Scalar α]

/-- Where an element takes the cursor, and the segment that it draws. -/
def follow (c : Cursor α) : Element α → Cursor α × Option (Segment α)
  | .moveTo p => ({ c with position := some p, subpathStart := some p, handle := .none }, none)
  | .lineTo p => c.stroke p .none fun start => .line start p
  | .quadTo q p => c.stroke p (.quadratic (some q)) fun start => .quadratic start q p
  | .cubicTo q₁ q₂ p => c.stroke p (.cubic q₂) fun start => .cubic start q₁ q₂ p
  | .close => c.close

def followAll (c : Cursor α) : List (Element α) → List (Segment α) × Cursor α
  | [] => ([], c)
  | e :: rest =>
    let later := (c.follow e).1.followAll rest
    ((c.follow e).2.toList ++ later.1, later.2)

variable {c : Cursor α} {pen : Point α}

theorem followAll_append (es fs : List (Element α)) :
    c.followAll (es ++ fs) =
      ((c.followAll es).1 ++ ((c.followAll es).2.followAll fs).1,
        ((c.followAll es).2.followAll fs).2) := by
  induction es generalizing c with
  | nil => rfl
  | cons e rest ih => simp [followAll, ih]

theorem followAll_singleton (e : Element α) :
    c.followAll [e] = ((c.follow e).2.toList, (c.follow e).1) := by
  simp [followAll]

/-- Strokes are drawn as segments from where the pen is. -/
theorem followAll_strokes (strokes : List (Stroke α)) (hpen : c.position = some pen) :
    (c.followAll (strokes.map Stroke.element)).1 = Stroke.segments pen strokes ∧
      (c.followAll (strokes.map Stroke.element)).2.position =
        some (Stroke.endpoint pen strokes) ∧
      (c.followAll (strokes.map Stroke.element)).2.subpathStart = c.subpathStart ∧
      (c.followAll (strokes.map Stroke.element)).2.unanchored = c.unanchored := by
  induction strokes generalizing c pen with
  | nil => exact ⟨rfl, hpen, rfl, rfl⟩
  | cons s rest ih =>
      have hstep : (c.follow s.element).2 = some (s.segment pen) ∧
          (c.follow s.element).1.position = some s.finish ∧
          (c.follow s.element).1.subpathStart = c.subpathStart ∧
          (c.follow s.element).1.unanchored = c.unanchored := by
        cases s <;> simp [follow, stroke, arrive, hpen, Stroke.element, Stroke.segment,
          Stroke.finish]
      obtain ⟨hsegment, hposition, hstart, hanchor⟩ := hstep
      obtain ⟨hsegments, hend, hstart', hanchor'⟩ := ih hposition
      refine ⟨?_, hend, hstart'.trans hstart, hanchor'.trans hanchor⟩
      change (c.follow s.element).2.toList ++ _ = _
      rw [hsegment, hsegments]
      rfl

/-- A close where the pen is back at the start draws nothing. -/
theorem follow_close {start : Point α} (hpen : c.position = some pen)
    (hstart : c.subpathStart = some start) (hreturned : (pen == start) = true) :
    (c.follow .close).2 = none ∧ (c.follow .close).1.unanchored = c.unanchored := by
  have hclose : c.follow .close = (c.arrive start .none, none) := by
    simp [follow, close, hpen, hstart, hreturned]
  rw [hclose]
  exact ⟨rfl, rfl⟩

/-- A subpath is drawn as its segments. Its close draws nothing, since the pen is there. -/
theorem followAll_subpath (s : Subpath α) :
    (c.followAll s.elements).1 = s.segments ∧
      (c.followAll s.elements).2.unanchored = c.unanchored := by
  have hmove : (c.follow (.moveTo s.start)).1.position = some s.start := rfl
  obtain ⟨hsegments, hposition, hstart, hanchor⟩ := followAll_strokes s.strokes hmove
  have hstrokes : c.followAll (.moveTo s.start :: s.strokes.map Stroke.element) =
      (c.follow (.moveTo s.start)).1.followAll (s.strokes.map Stroke.element) := rfl
  rw [Subpath.elements, followAll_append, hstrokes]
  by_cases hreturned : (s.finish == s.start) = true
  · obtain ⟨hnone, hanchor'⟩ := follow_close hposition hstart hreturned
    rw [if_pos hreturned, followAll_singleton, hnone, hsegments]
    exact ⟨List.append_nil _, hanchor'.trans hanchor⟩
  · rw [if_neg hreturned]
    exact ⟨by rw [hsegments]; exact List.append_nil _, hanchor⟩

theorem followAll_subpaths (subpaths : List (Subpath α)) :
    (c.followAll (subpaths.flatMap Subpath.elements)).1 = subpaths.flatMap Subpath.segments ∧
      (c.followAll (subpaths.flatMap Subpath.elements)).2.unanchored = c.unanchored := by
  induction subpaths generalizing c with
  | nil => exact ⟨rfl, rfl⟩
  | cons s rest ih =>
      obtain ⟨hsegments, hanchor⟩ := followAll_subpath (c := c) s
      obtain ⟨hrest, hanchor'⟩ := ih (c := (c.followAll s.elements).2)
      rw [List.flatMap_cons, followAll_append, List.flatMap_cons, hsegments, hrest]
      exact ⟨rfl, hanchor'.trans hanchor⟩

end Cursor

variable {tokens : List Token} {words : List (Word Float)}

theorem exists_readPoint {p : Point Float} (hp : p.IsPlain)
    (h : List.Forall₂ Token.Stands tokens (pointWords p ++ words)) :
    ∃ x y rest, tokens = x :: y :: rest ∧ Token.readPoint x y = .ok p ∧
      List.Forall₂ Token.Stands rest words := by
  obtain ⟨x, tail, hx, htail, rfl⟩ := List.forall₂_cons_right_iff.mp h
  obtain ⟨y, rest, hy, hrest, rfl⟩ := List.forall₂_cons_right_iff.mp htail
  refine ⟨x, y, rest, rfl, ?_, hrest⟩
  cases x with
  | letter => exact hx.elim
  | value dx =>
      cases y with
      | letter => exact hy.elim
      | value dy =>
          have hread : (Token.readPoint (.value dx) (.value dy) : Except Rejection (Point Float)) =
              .ok (.ofParts (Scalar.ofDecimal dx) (Scalar.ofDecimal dy)) := rfl
          rw [hread, show Scalar.ofDecimal dx = p.x from hx,
            show Scalar.ofDecimal dy = p.y from hy, hp.ofParts_eq]

/-- The tokens of an element are taken as one instruction, which does what the element says. -/
theorem exists_instruction {e : Element Float} (hplain : ∀ p ∈ e.points, p.IsPlain)
    (h : List.Forall₂ Token.Stands tokens (elementWords e ++ words)) :
    ∃ i values rest, tokens = .letter (commandOf e) false :: values ∧
      Instruction.take? (commandOf e) false values = some (i, rest) ∧
      List.Forall₂ Token.Stands rest words ∧
      ∀ c : Cursor Float, c.step i = .ok (c.follow e) := by
  obtain ⟨letter, values, hletter, hvalues, rfl⟩ := List.forall₂_cons_right_iff.mp h
  cases letter with
  | value d => exact hletter.elim
  | letter command relative =>
      obtain ⟨rfl, rfl⟩ := hletter
      cases e with
      | moveTo p =>
          obtain ⟨x, y, rest, rfl, hp, hrest⟩ :=
            exists_readPoint (hplain p (by simp [Element.points])) hvalues
          refine ⟨.moveTo false x y, _, rest, rfl, rfl, hrest, ?_⟩
          intro c
          simp only [Cursor.step, hp, Cursor.target, Bool.false_eq_true, if_false]
          rfl
      | lineTo p =>
          obtain ⟨x, y, rest, rfl, hp, hrest⟩ :=
            exists_readPoint (hplain p (by simp [Element.points])) hvalues
          refine ⟨.lineTo false x y, _, rest, rfl, rfl, hrest, ?_⟩
          intro c
          simp only [Cursor.step, hp, Cursor.place, Bool.false_eq_true, if_false]
          rfl
      | quadTo q p =>
          change List.Forall₂ Token.Stands values (pointWords q ++ (pointWords p ++ words))
            at hvalues
          obtain ⟨x₁, y₁, tail, rfl, hq, htail⟩ :=
            exists_readPoint (hplain q (by simp [Element.points])) hvalues
          obtain ⟨x, y, rest, rfl, hp, hrest⟩ :=
            exists_readPoint (hplain p (by simp [Element.points])) htail
          refine ⟨.quadTo false x₁ y₁ x y, _, rest, rfl, rfl, hrest, ?_⟩
          intro c
          simp only [Cursor.step, hq, hp, Cursor.place, Bool.false_eq_true, if_false]
          rfl
      | cubicTo q₁ q₂ p =>
          change List.Forall₂ Token.Stands values
            (pointWords q₁ ++ (pointWords q₂ ++ (pointWords p ++ words))) at hvalues
          obtain ⟨x₁, y₁, tail₁, rfl, hq₁, htail₁⟩ :=
            exists_readPoint (hplain q₁ (by simp [Element.points])) hvalues
          obtain ⟨x₂, y₂, tail₂, rfl, hq₂, htail₂⟩ :=
            exists_readPoint (hplain q₂ (by simp [Element.points])) htail₁
          obtain ⟨x, y, rest, rfl, hp, hrest⟩ :=
            exists_readPoint (hplain p (by simp [Element.points])) htail₂
          refine ⟨.cubicTo false x₁ y₁ x₂ y₂ x y, _, rest, rfl, rfl, hrest, ?_⟩
          intro c
          simp only [Cursor.step, hq₁, hq₂, hp, Cursor.place, Bool.false_eq_true, if_false]
          rfl
      | close => exact ⟨.closePath, _, values, rfl, rfl, hvalues, fun _ => rfl⟩

theorem deal_letter {pending : Option (Command × Bool)} {command : Command} {relative : Bool}
    {values rest : List Token} {i : Instruction}
    (h : Instruction.take? command relative values = some (i, rest)) :
    Instruction.deal pending (.letter command relative :: values) =
      (i :: (Instruction.deal (some (command.repeated, relative)) rest).1,
        (Instruction.deal (some (command.repeated, relative)) rest).2) := by
  rw [Instruction.deal]
  split
  · rename_i h'
    rw [h] at h'
    cases h'
  · rename_i h'
    rw [h] at h'
    cases h'
    rfl

/-- **Written elements are followed.** -/
theorem exists_run {es : List (Element Float)} (hplain : ∀ e ∈ es, ∀ p ∈ e.points, p.IsPlain)
    (h : List.Forall₂ Token.Stands tokens (es.flatMap elementWords))
    (pending : Option (Command × Bool)) (c : Cursor Float) :
    ∃ instructions, Instruction.deal pending tokens = (instructions, none) ∧
      c.run instructions = .ok (c.followAll es) := by
  induction es generalizing tokens pending c with
  | nil =>
      cases h
      exact ⟨[], by rw [Instruction.deal], rfl⟩
  | cons e rest ih =>
      rw [List.flatMap_cons] at h
      obtain ⟨i, values, more, rfl, htake, hmore, hstep⟩ :=
        exists_instruction (hplain e List.mem_cons_self) h
      obtain ⟨instructions, hdeal, hrun⟩ := ih (fun f hf => hplain f (List.mem_cons_of_mem e hf))
        hmore (some ((commandOf e).repeated, false)) (c.follow e).1
      refine ⟨i :: instructions, by rw [deal_letter htake, hdeal], ?_⟩
      rw [Cursor.run, hstep c]
      change ((c.follow e).1.run instructions >>= fun r =>
        .ok ((c.follow e).2.toList ++ r.1, r.2)) = _
      rw [hrun]
      rfl

end PathData

end ArcLength
