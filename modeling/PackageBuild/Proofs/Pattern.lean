import Mathlib.Data.List.Basic
/-!
# Patterns with preferences

A pattern describes texts and says which of several ways to read one is preferred: the first of two
alternatives before the second, more repetitions before fewer, or the other way round if the pattern
is reluctant. What a group holds is decided by the preferred way to read a whole text, so that two
patterns for the same texts may differ in it. The ways that are tried are exactly those that the
pattern allows.
-/

namespace PackageBuild

/-- A description of texts with at most one group. -/
inductive Pattern where
  /-- Nothing. -/
  | empty
  /-- One character of a class. -/
  | one (allowed : Char → Bool)
  /-- Two patterns, one behind the other. -/
  | follow (first second : Pattern)
  /-- One of two patterns, the first if possible. -/
  | either (first second : Pattern)
  /-- Any number of texts of a pattern: as many as possible, or as few if it is reluctant. -/
  | many (reluctant : Bool) (item : Pattern)
  /-- A pattern whose text is held. -/
  | group (inner : Pattern)

namespace Pattern

/-- One way to read the front of a text. -/
structure Way where
  /-- What is read. -/
  taken : List Char
  /-- What is left. -/
  rest : List Char
  /-- What the group holds, if it has been read. -/
  held : Option (List Char) := none
deriving DecidableEq, Repr

namespace Way

/-- A way to go on where another one ends. -/
def append (first second : Way) : Way :=
  ⟨first.taken ++ second.taken, second.rest, second.held.or first.held⟩

end Way

/-- The ways to read items of some kind again and again, each time at least one character. -/
def repeated (reluctant : Bool) (item : List Char → List Way) : Nat → List Char → List Way
  | 0, cs => [⟨[], cs, none⟩]
  | fuel + 1, cs =>
    let again := ((item cs).filter (!·.taken.isEmpty)).flatMap fun first =>
      (repeated reluctant item fuel first.rest).map first.append
    if reluctant then ⟨[], cs, none⟩ :: again else again ++ [⟨[], cs, none⟩]

/-- The ways to read the front of a text, the preferred one first. -/
def ways : Pattern → List Char → List Way
  | empty => fun cs => [⟨[], cs, none⟩]
  | one allowed => fun
    | [] => []
    | c :: cs => if allowed c then [⟨[c], cs, none⟩] else []
  | follow first second => fun cs =>
    (first.ways cs).flatMap fun before => (second.ways before.rest).map before.append
  | either first second => fun cs => first.ways cs ++ second.ways cs
  | many reluctant item => fun cs => repeated reluctant item.ways cs.length cs
  | group inner => fun cs => (inner.ways cs).map fun way => { way with held := some way.taken }

variable {pattern first second item inner : Pattern} {allowed : Char → Bool} {reluctant : Bool}
  {cs : List Char} {held : Option (List Char)} {way : Way}

/-- Whether a way reads the front of a text, as one that has some property. -/
def Way.Reads (way : Way) (cs : List Char) (takes : List Char → Option (List Char) → Prop) : Prop :=
  way.taken ++ way.rest = cs ∧ takes way.taken way.held

end Pattern
end PackageBuild
