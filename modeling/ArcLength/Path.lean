import ArcLength.Path.Element

/-!
# Paths

A path is the list of its elements in drawing order, and the builders add one at the end.
-/

namespace ArcLength

@[ext]
structure Path (α : Type) where
  elements : List (Element α)
deriving DecidableEq, Repr

namespace Path

variable {α : Type}

def empty : Path α := ⟨[]⟩

def isEmpty (p : Path α) : Bool := p.elements.isEmpty

def size (p : Path α) : Nat := p.elements.length

def take (p : Path α) (count : Nat) : Path α := ⟨p.elements.take count⟩

def append (p q : Path α) : Path α := ⟨p.elements ++ q.elements⟩

instance : Append (Path α) where
  append := append

def push (p : Path α) (e : Element α) : Path α := ⟨p.elements ++ [e]⟩

def moveTo (p : Path α) (point : Point α) : Path α := p.push (.moveTo point)

def lineTo (p : Path α) (point : Point α) : Path α := p.push (.lineTo point)

def quadTo (p : Path α) (control finish : Point α) : Path α := p.push (.quadTo control finish)

def cubicTo (p : Path α) (control1 control2 finish : Point α) : Path α :=
  p.push (.cubicTo control1 control2 finish)

def close (p : Path α) : Path α := p.push .close

def summary (p : Path α) : String := s!"Path({p.size} elements)"

end Path

end ArcLength
