import PackageBuild.Text.Split
/-!
# Paths

A path keeps the text it was written with, which is what messages show, and is compared through its
components: doubled and trailing slashes and inner dots make no difference, and paths are ordered
component by component. Joining, parents and relative paths work on the text and leave the inner
spelling alone.
-/

namespace PackageBuild

/-- A name of an entry in a directory: not empty, not a dot or two, and without slash. -/
structure Name where
  text : String
  /-- The name can stand as a component of a path. -/
  valid : text ≠ "" ∧ text ≠ "." ∧ text ≠ ".." ∧ '/' ∉ text.toList
deriving DecidableEq

namespace Name

/-- The name with a text, when the text is fit for one. -/
def ofText? (text : String) : Option Name :=
  if h : text ≠ "" ∧ text ≠ "." ∧ text ≠ ".." ∧ '/' ∉ text.toList then some ⟨text, h⟩ else none

/-- Names are ordered by their characters. -/
instance : Ord Name := ⟨compareOn text⟩

theorem ext_text {a b : Name} (h : a.text = b.text) : a = b := by
  cases a; cases b; cases h; rfl

instance : Std.TransOrd Name := inferInstanceAs (Std.TransCmp (compareOn text))

instance : Std.LawfulEqOrd Name where
  eq_of_compare {a b} h := ext_text (Std.LawfulEqOrd.eq_of_compare (a := a.text) (b := b.text) h)

instance : Repr Name := ⟨fun name _ => repr name.text⟩

@[simp]
theorem ofText?_text (name : Name) : ofText? name.text = some name := by
  simp only [ofText?]
  rw [dif_pos name.valid]

end Name

/-- One step of a path. -/
inductive Component where
  /-- The root directory, at the head of an absolute path. -/
  | root
  /-- The current directory, at the head of a relative path. -/
  | current
  /-- The parent directory. -/
  | parent
  /-- An entry of the directory reached so far. -/
  | normal (name : Name)
deriving DecidableEq, Repr

namespace Component

/-- How a component is written; the root is written as a slash. -/
def text : Component → String
  | .root => "/"
  | .current => "."
  | .parent => ".."
  | .normal name => name.text

/-- The place of the kind of a component in their order. -/
def rank : Component → Nat
  | .root => 0
  | .current => 1
  | .parent => 2
  | .normal _ => 3

/-- Components are ordered by kind and then by text. -/
instance : Ord Component := ⟨compareLex (compareOn rank) (compareOn text)⟩

instance : Std.TransOrd Component :=
  inferInstanceAs (Std.TransCmp (compareLex (compareOn rank) (compareOn text)))

instance : Std.LawfulEqOrd Component where
  eq_of_compare {a b} h := by
    have h' : (compare a.rank b.rank).then (compare a.text b.text) = .eq := h
    rw [Ordering.then_eq_eq] at h'
    have hr : a.rank = b.rank := Std.LawfulEqOrd.eq_of_compare h'.1
    have ht : a.text = b.text := Std.LawfulEqOrd.eq_of_compare h'.2
    rcases a with _ | _ | _ | a <;> rcases b with _ | _ | _ | b <;> simp [rank] at hr ⊢
    exact Name.ext_text ht

/-- The component a piece between slashes stands for; empty pieces and dots stand for none. -/
def ofPiece? (piece : String) : Option Component :=
  if piece = ".." then some .parent else (Name.ofText? piece).map .normal

end Component

/-- A path as it was written. -/
structure Path where
  text : String
deriving DecidableEq, Repr, Inhabited

namespace Path

/-- Whether a path starts at the root. -/
def isAbsolute (p : Path) : Bool := p.text.toList.head? == some '/'

/-- Whether a path ends in a slash, so that it can only name a directory. -/
def endsInSlash (p : Path) : Bool := p.text.toList.getLast? == some '/'

/-- The pieces between the slashes of a path, each with the component it stands for. The first piece
of an absolute path stands for the root, and a dot counts only at the head of a relative one. -/
def tokens (p : Path) : List (Option Component × String) :=
  match Text.pieces '/' p.text with
  | [] => []
  | first :: rest =>
    let head := if p.isAbsolute then some Component.root
      else if first = "." then some .current
      else Component.ofPiece? first
    (head, first) :: rest.map fun piece => (Component.ofPiece? piece, piece)

def components (p : Path) : List Component := p.tokens.filterMap (·.1)

/-- Paths are ordered component by component. -/
instance : Ord Path := ⟨compareOn components⟩

/-- Whether two paths have the same components. -/
def same (p q : Path) : Bool := p.components == q.components

def le (p q : Path) : Bool := (compare p.components q.components).isLE

/-- The path that starts at `base` and goes on with `rest`; an absolute `rest` stands alone. -/
def join (base rest : Path) : Path :=
  if rest.isAbsolute then rest
  else if base.text = "" ∨ base.endsInSlash then ⟨base.text ++ rest.text⟩
  else ⟨base.text ++ "/" ++ rest.text⟩

/-- Join with a path given by its text. -/
def joinText (base : Path) (rest : String) : Path := base.join ⟨rest⟩

/-- The path that starts at `base` and goes on through entries of these names. -/
def descend (base : Path) (names : List Name) : Path :=
  names.foldl (fun p name => p.joinText name.text) base

/-- Pieces without the last ones that stand for no component. -/
def trimEnd (tokens : List (Option Component × String)) : List (Option Component × String) :=
  (tokens.reverse.dropWhile (·.1.isNone)).reverse

/-- The path whose pieces these are. -/
def ofTokens (tokens : List (Option Component × String)) : Path :=
  if tokens.map (·.1) = [some .root] then ⟨"/"⟩ else ⟨Text.join "/" (tokens.map (·.2))⟩

/-- The path without its last component; a root and an empty path have no parent. -/
def parent? (p : Path) : Option Path :=
  let tokens := trimEnd p.tokens
  match tokens.getLast? with
  | some (some .root, _) => none
  | some _ => some (ofTokens (trimEnd tokens.dropLast))
  | none => none

def fileName? (p : Path) : Option String :=
  match p.components.getLast? with
  | some (.normal name) => some name.text
  | _ => none

/-- The pieces that remain after these components, when the pieces start with them. -/
def stripTokens :
    List Component → List (Option Component × String) → Option (List (Option Component × String))
  | [], tokens => some tokens
  | _ :: _, [] => none
  | c :: cs, (none, _) :: tokens => stripTokens (c :: cs) tokens
  | c :: cs, (some d, _) :: tokens => if c = d then stripTokens cs tokens else none

/-- What follows `base` in a path that starts with the components of `base`. -/
def strip? (base p : Path) : Option Path :=
  match base.components with
  | [] => some (ofTokens (trimEnd p.tokens))
  | cs => (stripTokens cs p.tokens).map fun rest =>
    ofTokens (trimEnd (rest.dropWhile (·.1.isNone)))

/-- The components that lead from `base` to `target`: one step up for each component of `base`
beyond the common ones, then down. A step up in `base` itself cannot be undone. -/
def between (started : Bool) : List Component → List Component → Option (List Component)
  | target, [] => some target
  | [], _ :: base => (Component.parent :: ·) <$> between true [] base
  | a :: target, b :: base =>
    if ¬ started ∧ a = b then between false target base
    else if b = .current then (a :: ·) <$> between true target base
    else if b = .parent then none
    else some (.parent :: base.map (fun _ => Component.parent) ++ a :: target)

/-- The path made of these components. -/
def ofComponents (cs : List Component) : Path :=
  cs.foldl (fun p c => p.joinText c.text) ⟨""⟩

/-- A path as seen from `base`: what follows `base`, else the steps that lead there, else the path
itself. -/
def under (base p : Path) : Path :=
  match strip? base p with
  | some rest => rest
  | none =>
    if p.isAbsolute = base.isAbsolute then
      match between false p.components base.components with
      | some steps => ofComponents steps
      | none => p
    else p

end Path
end PackageBuild
