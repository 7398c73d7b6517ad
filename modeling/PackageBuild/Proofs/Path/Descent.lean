import PackageBuild.Proofs.Path.Pieces
/-!
# Paths that go on with names

Joining a path with the name of an entry adds one component and keeps the others, however the path
is spelled. Parents, last names and relative paths of such paths are read off the names.
-/

namespace PackageBuild

namespace Name

/-- The token of a name. -/
def token (name : Name) : Option Component × String := (some (.normal name), name.text)

theorem ofPiece?_text (name : Name) : Component.ofPiece? name.text = some (.normal name) := by
  rw [Component.ofPiece?, if_neg name.valid.2.2.1, ofText?_text, Option.map_some]

end Name

namespace Path

/-- The text of a path up to where a name can follow. -/
def lead (p : Path) : String := if p.text = "" ∨ p.endsInSlash then p.text else p.text ++ "/"

theorem join_of_relative (p : Path) {rest : Path} (relative : rest.isAbsolute = false) :
    p.join rest = ⟨p.lead ++ rest.text⟩ := by
  rw [join, relative, if_neg Bool.false_ne_true, lead]
  by_cases closed : p.text = "" ∨ p.endsInSlash = true
  · rw [if_pos closed, if_pos closed]
  · rw [if_neg closed, if_neg closed]

private theorem isAbsolute_name (name : Name) : (Path.mk name.text).isAbsolute = false := by
  rw [isAbsolute, beq_eq_false_iff_ne]
  intro slash
  exact name.valid.2.2.2 (List.mem_of_head? slash)

theorem joinText_name (p : Path) (name : Name) : p.joinText name.text = ⟨p.lead ++ name.text⟩ :=
  join_of_relative p (isAbsolute_name name)

private theorem name_text_ne_nil (name : Name) : name.text.toList ≠ [] := by
  rw [ne_eq, String.toList_eq_nil_iff]
  exact name.valid.1

theorem endsInSlash_joinText (p : Path) (name : Name) :
    (p.joinText name.text).endsInSlash = false := by
  rw [joinText_name, endsInSlash, beq_eq_false_iff_ne, String.toList_append,
    List.getLast?_append_of_ne_nil _ (name_text_ne_nil name)]
  intro slash
  exact name.valid.2.2.2 (List.mem_of_getLast? slash)

theorem text_joinText_ne_empty (p : Path) (name : Name) : (p.joinText name.text).text ≠ "" := by
  intro empty
  have chars := congrArg String.toList empty
  rw [joinText_name, String.toList_append] at chars
  exact name_text_ne_nil name (List.append_eq_nil_iff.mp chars).2

theorem lead_joinText (p : Path) (name : Name) :
    (p.joinText name.text).lead = p.lead ++ name.text ++ "/" := by
  rw [lead, if_neg (by simp [endsInSlash_joinText, text_joinText_ne_empty]), joinText_name]

@[simp]
theorem descend_nil (p : Path) : p.descend [] = p := rfl

@[simp]
theorem descend_cons (p : Path) (name : Name) (names : List Name) :
    p.descend (name :: names) = (p.joinText name.text).descend names := rfl

theorem descend_append (p : Path) (front back : List Name) :
    p.descend (front ++ back) = (p.descend front).descend back :=
  List.foldl_append

theorem text_descend (p : Path) (name : Name) (names : List Name) :
    (p.descend (name :: names)).text =
      p.lead ++ Text.join "/" ((name :: names).map Name.text) := by
  induction names generalizing p name with
  | nil =>
      rw [descend_cons, descend_nil, joinText_name, Text.join, List.map_singleton,
        String.intercalate_singleton]
  | cons next names induction =>
      rw [descend_cons, induction, lead_joinText, List.map_cons, List.map_cons, List.map_cons,
        Text.join, Text.join, String.intercalate_cons_cons]
      simp only [String.append_assoc]

/-! ## Tokens -/

/-- The tokens of a path up to where a name can follow. -/
def trunk (p : Path) : List (Option Component × String) :=
  if p.text = "" then []
  else if p.endsInSlash then p.tokens.dropLast
  else p.tokens

theorem exists_text_of_endsInSlash {p : Path} (slash : p.endsInSlash = true) :
    ∃ front, p.text = front ++ "/" := by
  rw [endsInSlash, beq_iff_eq, List.getLast?_eq_some_iff] at slash
  obtain ⟨front, chars⟩ := slash
  refine ⟨String.ofList front, ?_⟩
  rw [← String.toList_inj, chars, String.toList_append, String.toList_ofList]
  rfl

/-- The last of several pieces stands for the same component whatever comes before it, and the
tokens before it do not depend on it. -/
private theorem tokensOf_concat {front : List String} (some_front : front ≠ [])
    (last other : String) :
    tokensOf (front ++ [last]) =
      (tokensOf (front ++ [other])).dropLast ++ [(Component.ofPiece? last, last)] := by
  cases front with
  | nil => exact absurd rfl some_front
  | cons first rest =>
      have head : headComponent first (rest ++ [last]) = headComponent first (rest ++ [other]) := by
        simp [headComponent]
      rw [List.cons_append, List.cons_append, tokensOf, tokensOf, head, List.map_append,
        List.map_append, List.map_singleton, List.map_singleton, ← List.cons_append,
        ← List.cons_append, List.dropLast_concat]

theorem tokens_joinText (p : Path) (name : Name) :
    (p.joinText name.text).tokens = p.trunk ++ [name.token] := by
  have last : Text.pieces '/' name.text = [name.text] := Text.pieces_of_not_mem name.valid.2.2.2
  have token : (Component.ofPiece? name.text, name.text) = name.token := by
    rw [name.ofPiece?_text, Name.token]
  rw [joinText_name, tokens_eq_tokensOf, trunk, lead]
  by_cases empty : p.text = ""
  · have not_dot : headComponent name.text [] = some (.normal name) := by
      simp [headComponent, name.valid.2.1, name.ofPiece?_text]
    simp [empty, last, tokensOf, not_dot, Name.token]
  · rw [if_neg empty]
    by_cases slash : p.endsInSlash = true
    · obtain ⟨front, text⟩ := exists_text_of_endsInSlash slash
      have after : Text.pieces '/' p.text = Text.pieces '/' front ++ [""] := by
        have := Text.pieces_append_slash front ""
        rw [String.append_empty, ← text] at this
        exact this
      rw [if_pos (Or.inr slash), if_pos slash, tokens_eq_tokensOf, after, text,
        Text.pieces_append_slash, last,
        tokensOf_concat (Text.pieces_ne_nil front) name.text "", token]
    · have whole : Text.pieces '/' p.text ≠ [""] := by
        intro single
        have joined := Text.join_pieces p.text
        rw [single, Text.join, String.intercalate_singleton] at joined
        exact empty joined.symm
      rw [if_neg (not_or.mpr ⟨empty, slash⟩), if_neg slash, tokens_eq_tokensOf,
        Text.pieces_append_slash, last, tokensOf_append (Text.pieces_ne_nil p.text) whole,
        List.map_singleton, token]

theorem trunk_joinText (p : Path) (name : Name) :
    (p.joinText name.text).trunk = p.trunk ++ [name.token] := by
  rw [trunk, if_neg (text_joinText_ne_empty p name), endsInSlash_joinText, if_neg (by decide),
    tokens_joinText]

theorem trunk_descend (p : Path) (names : List Name) :
    (p.descend names).trunk = p.trunk ++ names.map Name.token := by
  induction names generalizing p with
  | nil => simp
  | cons name names induction => simp [induction, trunk_joinText]

/-- Names that follow a path come last among its tokens. -/
theorem tokens_descend (p : Path) {names : List Name} (some_name : names ≠ []) :
    (p.descend names).tokens = p.trunk ++ names.map Name.token := by
  rw [← List.dropLast_concat_getLast some_name, descend_append, descend_cons, descend_nil,
    tokens_joinText, trunk_descend, List.map_append, List.append_assoc]
  rfl

theorem endsInSlash_descend (p : Path) {names : List Name} (some_name : names ≠ []) :
    (p.descend names).endsInSlash = false := by
  rw [← List.dropLast_concat_getLast some_name, descend_append]
  exact endsInSlash_joinText _ _

theorem text_descend_ne_empty (p : Path) {names : List Name} (some_name : names ≠ []) :
    (p.descend names).text ≠ "" := by
  rw [← List.dropLast_concat_getLast some_name, descend_append]
  exact text_joinText_ne_empty _ _

/-- What a path has after its trunk asks for nothing but a directory. -/
theorem tokens_eq_trunk_or (p : Path) :
    p.tokens = p.trunk ∧ p.text ≠ "" ∧ p.endsInSlash = false ∨
      p.tokens = p.trunk ++ [(none, "")] ∧ (p.text = "" ∨ p.endsInSlash = true) := by
  rw [trunk]
  by_cases empty : p.text = ""
  · right
    have alone : p.tokens = [(none, "")] := by
      rw [tokens_eq_tokensOf, empty]
      rfl
    simp [empty, alone]
  · rw [if_neg empty]
    by_cases slash : p.endsInSlash = true
    · right
      obtain ⟨front, text⟩ := exists_text_of_endsInSlash slash
      have cut := Text.pieces_append_slash front ""
      rw [String.append_empty, ← text] at cut
      refine ⟨?_, Or.inr slash⟩
      rw [if_pos slash, tokens_eq_tokensOf, cut]
      exact tokensOf_concat (Text.pieces_ne_nil front) "" ""
    · left
      simp [slash, empty]

theorem components_eq_trunk (p : Path) : p.components = p.trunk.filterMap (·.1) := by
  rcases p.tokens_eq_trunk_or with ⟨tokens, -⟩ | ⟨tokens, -⟩
  · rw [components, tokens]
  · rw [components, tokens, List.filterMap_append]
    simp

theorem filterMap_token (names : List Name) :
    (names.map Name.token).filterMap (·.1) = names.map .normal := by
  simp [List.filterMap_map, Function.comp_def, Name.token]

/-- Names that follow a path come last among its components. -/
theorem components_descend (p : Path) (names : List Name) :
    (p.descend names).components = p.components ++ names.map .normal := by
  rw [components_eq_trunk, trunk_descend, List.filterMap_append, filterMap_token,
    ← components_eq_trunk]

theorem fileName?_descend (p : Path) (front : List Name) (name : Name) :
    (p.descend (front ++ [name])).fileName? = some name.text := by
  rw [fileName?, components_descend, List.map_append, ← List.append_assoc, List.map_singleton,
    List.getLast?_concat]

end Path
end PackageBuild
