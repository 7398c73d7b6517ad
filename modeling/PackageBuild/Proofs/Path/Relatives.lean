import PackageBuild.Proofs.Path.Descent
import Mathlib.Data.List.DropRight
/-!
# Parents and relative paths

The parent of a path lacks its last component, a path that goes on with names is seen from where it
started as these names, and joining with them leads back.
-/

namespace PackageBuild

namespace Path

/-! ## Parents -/

theorem trimEnd_isFront (tokens : List (Option Component × String)) : trimEnd tokens <+: tokens :=
  List.rdropWhile_prefix _ tokens

theorem trimEnd_concat_some (tokens : List (Option Component × String)) (c : Component)
    (text : String) : trimEnd (tokens ++ [(some c, text)]) = tokens ++ [(some c, text)] :=
  List.rdropWhile_concat_neg _ _ _ (by simp)

theorem trimEnd_last_ne_none {tokens front : List (Option Component × String)}
    {component : Option Component} {text : String}
    (trimmed : trimEnd tokens = front ++ [(component, text)]) : component ≠ none := by
  rintro rfl
  have again : trimEnd (front ++ [(none, text)]) = front ++ [(none, text)] := by
    rw [← trimmed]
    exact List.rdropWhile_idempotent _ _
  have shorter : trimEnd (front ++ [(none, text)]) = trimEnd front :=
    List.rdropWhile_concat_pos _ _ _ (by simp)
  have lengths := (trimEnd_isFront front).length_le
  rw [← shorter, again, List.length_append, List.length_singleton] at lengths
  omega

theorem filterMap_trimEnd (tokens : List (Option Component × String)) :
    (trimEnd tokens).filterMap (·.1) = tokens.filterMap (·.1) := by
  induction tokens using List.reverseRecOn with
  | nil => rfl
  | append_singleton tokens token induction =>
      obtain ⟨component, text⟩ := token
      cases component with
      | none =>
          have dropped : trimEnd (tokens ++ [(none, text)]) = trimEnd tokens :=
            List.rdropWhile_concat_pos _ _ _ (by simp)
          rw [dropped, induction, List.filterMap_append]
          simp
      | some c => rw [trimEnd_concat_some]

/-- A piece never stands for the root or for the current directory. -/
theorem ofPiece?_ne {component : Component} (special : component = .root ∨ component = .current)
    (piece : String) : Component.ofPiece? piece ≠ some component := by
  rw [Component.ofPiece?]
  split
  · rcases special with rfl | rfl <;> simp
  · cases Name.ofText? piece with
    | none => simp
    | some name => rcases special with rfl | rfl <;> simp

theorem headComponent_singleton_ne_root (piece : String) :
    headComponent piece [] ≠ some .root := by
  rw [headComponent, if_neg (by simp)]
  split
  · simp
  · exact ofPiece?_ne (Or.inl rfl) piece

theorem components_ofTokens_of_front {p : Path} {tokens : List (Option Component × String)}
    (front : tokens <+: p.tokens) : (ofTokens tokens).components = tokens.filterMap (·.1) := by
  obtain ⟨back, whole⟩ := front
  have cut : tokens.map (·.2) ++ back.map (·.2) = Text.pieces '/' p.text := by
    rw [← map_snd_tokens, ← whole, List.map_append]
  rw [tokens_eq_tokensOf, ← cut] at whole
  by_cases blank : tokens.map (·.2) = []
  · obtain rfl := List.map_eq_nil_iff.mp blank
    rfl
  · by_cases slash : tokens.map (·.2) = [""]
    · obtain ⟨⟨component, text⟩, rfl, empty⟩ := List.map_eq_singleton_iff.mp slash
      obtain rfl : text = "" := empty
      have head : component = headComponent "" (back.map (·.2)) := by
        have := congrArg List.head? whole
        simpa [tokensOf] using this
      rw [head, headComponent]
      by_cases last : back.map (·.2) = []
      · rw [if_neg (by simp [last]), if_neg (by decide)]
        rfl
      · rw [if_pos ⟨rfl, last⟩]
        rfl
    · have same : tokens = tokensOf (tokens.map (·.2)) := by
        rw [tokensOf_append blank slash] at whole
        refine (List.append_inj whole ?_).1
        have length := congrArg List.length (map_snd_tokensOf (tokens.map (·.2)))
        rw [List.length_map, List.length_map] at length
        exact length.symm
      have proper : tokens.map (·.1) ≠ [some .root] := by
        intro rooted
        obtain ⟨⟨component, text⟩, rfl, root⟩ := List.map_eq_singleton_iff.mp rooted
        have head : component = headComponent text [] := by
          have := congrArg List.head? same
          simpa [tokensOf] using this
        exact headComponent_singleton_ne_root text (head ▸ root)
      have free : ∀ text ∈ tokens.map (·.2), '/' ∉ text.toList := by
        intro text member
        have piece : text ∈ Text.pieces '/' p.text := by
          rw [← cut]
          exact List.mem_append_left _ member
        exact Text.not_mem_of_mem_pieces piece
      rw [ofTokens, if_neg proper, components, tokens_eq_tokensOf, Text.pieces_join blank free,
        ← same]

/-- A parent lacks the last component. -/
theorem components_parent? {p q : Path} (parent : p.parent? = some q) :
    q.components = p.components.dropLast := by
  unfold parent? at parent
  dsimp only at parent
  split at parent
  · exact absurd parent (by simp)
  · rename_i token not_root last
    obtain rfl := Option.some.inj parent
    obtain ⟨front, trimmed⟩ := List.getLast?_eq_some_iff.mp last
    have in_tokens : trimEnd (trimEnd p.tokens).dropLast <+: p.tokens :=
      (trimEnd_isFront _).trans ((List.dropLast_prefix _).trans (trimEnd_isFront _))
    obtain ⟨component, text⟩ := token
    obtain ⟨c, rfl⟩ := Option.ne_none_iff_exists'.mp (trimEnd_last_ne_none trimmed)
    have all : p.components = front.filterMap (·.1) ++ [c] := by
      rw [components, ← filterMap_trimEnd, trimmed, List.filterMap_append]
      rfl
    rw [components_ofTokens_of_front in_tokens, filterMap_trimEnd, trimmed, List.dropLast_concat,
      all, List.dropLast_concat]
  · exact absurd parent (by simp)

theorem exists_parent? {p : Path} {front : List Component} {name : Name}
    (ends : p.components = front ++ [.normal name]) :
    ∃ q, p.parent? = some q ∧ q.components = front := by
  rw [components, ← filterMap_trimEnd] at ends
  obtain ⟨q, parent⟩ : ∃ q, p.parent? = some q := by
    rcases List.eq_nil_or_concat (trimEnd p.tokens) with none_left | ⟨before, token, trimmed⟩
    · rw [none_left] at ends
      exact absurd ends (by simp)
    · obtain ⟨component, text⟩ := token
      rw [List.concat_eq_append] at trimmed
      obtain ⟨c, rfl⟩ := Option.ne_none_iff_exists'.mp (trimEnd_last_ne_none trimmed)
      rw [trimmed, List.filterMap_append] at ends
      obtain ⟨-, same⟩ := List.append_inj' ends rfl
      obtain rfl := (List.cons.inj same).1
      refine ⟨ofTokens (trimEnd before), ?_⟩
      simp only [parent?, trimmed, List.getLast?_concat, List.dropLast_concat]
  refine ⟨q, parent, ?_⟩
  rw [components_parent? parent, components, ← filterMap_trimEnd, ends, List.dropLast_concat]

theorem parent?_descend (p : Path) {names : List Name} (some_name : names ≠ []) (name : Name) :
    (p.descend (names ++ [name])).parent? = some (p.descend names) := by
  obtain ⟨front, last, rfl⟩ : ∃ front last, names = front ++ [last] :=
    ⟨_, _, (List.dropLast_concat_getLast some_name).symm⟩
  have tokens := p.tokens_descend
    (List.append_ne_nil_of_right_ne_nil (front ++ [last]) (List.cons_ne_nil name []))
  have before := p.tokens_descend some_name
  rw [List.map_append, List.map_singleton, ← List.append_assoc, ← before] at tokens
  have trimmed : trimEnd (p.descend (front ++ [last])).tokens =
      (p.descend (front ++ [last])).tokens := by
    rw [before, List.map_append, List.map_singleton, ← List.append_assoc]
    exact trimEnd_concat_some _ _ _
  have proper : (p.descend (front ++ [last])).tokens.map (·.1) ≠ [some .root] := by
    intro rooted
    have ends := congrArg List.getLast? rooted
    rw [before] at ends
    simp [Name.token] at ends
  rw [parent?, tokens, Name.token, trimEnd_concat_some]
  simp only [List.getLast?_concat, List.dropLast_concat, trimmed]
  rw [ofTokens, if_neg proper, map_snd_tokens, Text.join_pieces]

/-! ## Relative paths -/

theorem lead_empty : (⟨""⟩ : Path).lead = "" := rfl

theorem text_descend_empty (name : Name) (names : List Name) :
    ((⟨""⟩ : Path).descend (name :: names)).text =
      Text.join "/" ((name :: names).map Name.text) := by
  rw [text_descend, lead_empty, String.empty_append]

theorem ofTokens_names (names : List Name) :
    ofTokens (names.map Name.token) = (⟨""⟩ : Path).descend names := by
  cases names with
  | nil => rfl
  | cons name names =>
      have proper : ((name :: names).map Name.token).map (·.1) ≠ [some .root] := by
        simp [Name.token]
      have texts : ((name :: names).map Name.token).map (·.2) = (name :: names).map Name.text := by
        simp [Name.token, Function.comp_def]
      rw [ofTokens, if_neg proper, texts, ← text_descend_empty]

theorem trimEnd_names (names : List Name) :
    trimEnd (names.map Name.token) = names.map Name.token := by
  rcases List.eq_nil_or_concat names with rfl | ⟨front, last, rfl⟩
  · rfl
  · rw [List.concat_eq_append, List.map_append, List.map_singleton]
    exact trimEnd_concat_some _ _ _

/-- Taking the components of some tokens off longer ones leaves the rest, after pieces that stand
for no component. -/
theorem stripTokens_append (tokens rest : List (Option Component × String)) :
    ∃ blank, (∀ token ∈ blank, token.1 = none) ∧
      stripTokens (tokens.filterMap (·.1)) (tokens ++ rest) = some (blank ++ rest) := by
  induction tokens with
  | nil => exact ⟨[], by simp, by simp [stripTokens]⟩
  | cons token tokens induction =>
      obtain ⟨component, text⟩ := token
      obtain ⟨blank, none_stands, stripped⟩ := induction
      cases component with
      | none =>
          cases components : tokens.filterMap (·.1) with
          | nil =>
              refine ⟨(none, text) :: tokens, ?_, ?_⟩
              · simpa using List.filterMap_eq_nil_iff.mp components
              · simp [components, stripTokens]
          | cons c cs =>
              refine ⟨blank, none_stands, ?_⟩
              rw [components] at stripped
              simpa [components, stripTokens] using stripped
      | some c =>
          refine ⟨blank, none_stands, ?_⟩
          simpa [stripTokens] using stripped

theorem headComponent_eq_none {first : String} {rest : List String}
    (free : '/' ∉ first.toList) (none_stands : headComponent first rest = none) :
    first = "" ∧ rest = [] := by
  rw [headComponent] at none_stands
  by_cases rooted : first = "" ∧ rest ≠ []
  · simp [rooted] at none_stands
  · by_cases dot : first = "."
    · simp [dot] at none_stands
    · rw [if_neg rooted, if_neg dot, Component.ofPiece?] at none_stands
      by_cases dots : first = ".."
      · simp [dots] at none_stands
      · rw [if_neg dots, Option.map_eq_none_iff, Name.ofText?] at none_stands
        have empty : first = "" := by
          by_contra filled
          rw [dif_pos ⟨filled, dot, dots, free⟩] at none_stands
          exact absurd none_stands (by simp)
        refine ⟨empty, ?_⟩
        by_contra more
        exact rooted ⟨empty, more⟩

theorem eq_empty_of_components {p : Path} (none_stands : p.components = []) : p = ⟨""⟩ := by
  have all := List.filterMap_eq_nil_iff.mp none_stands
  rw [tokens_eq_tokensOf] at all
  cases cut : Text.pieces '/' p.text with
  | nil => exact absurd cut (Text.pieces_ne_nil p.text)
  | cons first rest =>
      have free := @Text.not_mem_of_mem_pieces p.text first (by simp [cut])
      have head : headComponent first rest = none := by
        apply all (headComponent first rest, first)
        simp [cut, tokensOf]
      obtain ⟨rfl, rfl⟩ := headComponent_eq_none free head
      have text := Text.join_pieces p.text
      rw [cut, Text.join, String.intercalate_singleton] at text
      cases p
      simp only at text
      rw [← text]

theorem components_ne_nil_of_isAbsolute {p : Path} (absolute : p.isAbsolute = true) :
    p.components ≠ [] := by
  intro none_stands
  rw [eq_empty_of_components none_stands] at absolute
  exact absurd absolute (by decide)

private theorem dropWhile_isNone_append {blank : List (Option Component × String)}
    (none_stands : ∀ token ∈ blank, token.1 = none) (names : List Name) :
    (blank ++ names.map Name.token).dropWhile (·.1.isNone) = names.map Name.token := by
  have skipped : blank.dropWhile (·.1.isNone) = [] := by
    rw [List.dropWhile_eq_nil_iff]
    intro token member
    simp [none_stands token member]
  rw [List.dropWhile_append, skipped]
  cases names with
  | nil => rfl
  | cons name names => simp [Name.token]

theorem strip?_descend (p : Path) (names : List Name) :
    p.strip? (p.descend names) = some ((⟨""⟩ : Path).descend names) := by
  rw [strip?]
  cases components : p.components with
  | nil =>
      obtain rfl := eq_empty_of_components components
      have trimmed : trimEnd ((⟨""⟩ : Path).descend names).tokens = names.map Name.token := by
        cases names with
        | nil => rfl
        | cons name names =>
            rw [tokens_descend _ (List.cons_ne_nil name names)]
            exact trimEnd_names _
      simp only [trimmed, ofTokens_names]
  | cons c cs =>
      have rest : ∃ last, (∀ token ∈ last, token.1 = none) ∧
          (p.descend names).tokens = p.trunk ++ (names.map Name.token ++ last) ∧
          (names ≠ [] → last = []) := by
        rcases List.eq_nil_or_concat names with rfl | ⟨front, name, rfl⟩
        · rcases p.tokens_eq_trunk_or with ⟨tokens, -⟩ | ⟨tokens, -⟩
          · exact ⟨[], by simp, by simpa using tokens, fun _ => rfl⟩
          · exact ⟨[(none, "")], by simp, by simpa using tokens,
              fun some_name => absurd rfl some_name⟩
        · exact ⟨[], by simp, by simp [tokens_descend], fun _ => rfl⟩
      obtain ⟨last, none_last, tokens, no_last⟩ := rest
      obtain ⟨blank, none_stands, stripped⟩ :=
        stripTokens_append p.trunk (names.map Name.token ++ last)
      rw [← components_eq_trunk, components, ← tokens] at stripped
      have dropped : (blank ++ (names.map Name.token ++ last)).dropWhile (·.1.isNone) =
          names.map Name.token := by
        cases names with
        | nil =>
            have all : ∀ token ∈ blank ++ last, token.1 = none := by
              intro token member
              rcases List.mem_append.mp member with member | member
              · exact none_stands token member
              · exact none_last token member
            simpa using dropWhile_isNone_append all []
        | cons name names =>
            rw [no_last (List.cons_ne_nil name names), List.append_nil]
            exact dropWhile_isNone_append none_stands _
      simp only [stripped, Option.map_some, dropped, trimEnd_names, ofTokens_names]

theorem under_descend (p : Path) (names : List Name) :
    p.under (p.descend names) = (⟨""⟩ : Path).descend names := by
  rw [under, strip?_descend]

private theorem isAbsolute_descend_empty (names : List Name) :
    ((⟨""⟩ : Path).descend names).isAbsolute = false := by
  cases names with
  | nil => rfl
  | cons name names =>
      have free : ∀ text ∈ (name :: names).map Name.text, '/' ∉ text.toList := by
        intro text member
        obtain ⟨n, -, rfl⟩ := List.mem_map.mp member
        exact n.valid.2.2.2
      have cut : Text.pieces '/' ((⟨""⟩ : Path).descend (name :: names)).text =
          name.text :: names.map Name.text := by
        rw [text_descend_empty, Text.pieces_join (by simp) free, List.map_cons]
      rw [← Bool.not_eq_true, isAbsolute_iff cut]
      exact fun rooted => name.valid.1 rooted.1

/-- Joining with some names goes on with them. -/
theorem join_descend_empty (p : Path) {names : List Name} (some_name : names ≠ []) :
    p.join ((⟨""⟩ : Path).descend names) = p.descend names := by
  rw [join_of_relative p (isAbsolute_descend_empty names)]
  cases names with
  | nil => exact absurd rfl some_name
  | cons name names => rw [text_descend_empty, ← text_descend]

theorem components_join_empty (p : Path) : (p.join ⟨""⟩).components = p.components := by
  rw [join_of_relative p (by rfl), lead, String.append_empty]
  by_cases closed : p.text = "" ∨ p.endsInSlash = true
  · rw [if_pos closed]
  · have cut : Text.pieces '/' (p.text ++ "/") = Text.pieces '/' p.text ++ [""] := by
      have cut := Text.pieces_append_slash p.text ""
      rwa [String.append_empty] at cut
    have proper : Text.pieces '/' p.text ≠ [""] := by
      intro single
      have joined := Text.join_pieces p.text
      rw [single, Text.join, String.intercalate_singleton] at joined
      exact closed (Or.inl joined.symm)
    rw [if_neg closed, components, components, tokens_eq_tokensOf, tokens_eq_tokensOf, cut,
      tokensOf_append (Text.pieces_ne_nil p.text) proper, List.filterMap_append,
      show [""].map (fun piece => (Component.ofPiece? piece, piece)) = [(none, "")] from rfl]
    simp

theorem join_name_slash (p : Path) (name : Name) :
    p.join (((⟨""⟩ : Path).descend [name]).join ⟨""⟩) = (p.descend [name]).join ⟨""⟩ := by
  have lead_name : ((⟨""⟩ : Path).descend [name]).lead = name.text ++ "/" := by
    rw [descend_cons, descend_nil, lead_joinText, lead_empty, String.empty_append]
  have first : Text.pieces '/' (name.text ++ "/") = name.text :: [""] := by
    have cut := Text.pieces_append_slash name.text ""
    rwa [String.append_empty, Text.pieces_of_not_mem name.valid.2.2.2] at cut
  have relative : (Path.mk (name.text ++ "/")).isAbsolute = false := by
    rw [← Bool.not_eq_true, isAbsolute_iff first]
    exact fun rooted => name.valid.1 rooted.1
  have empty : (⟨""⟩ : Path).isAbsolute = false := rfl
  have slash : ((⟨""⟩ : Path).descend [name]).join ⟨""⟩ = ⟨name.text ++ "/"⟩ := by
    rw [join_of_relative _ empty, lead_name, String.append_empty]
  rw [slash, join_of_relative _ empty, join_of_relative p relative, descend_cons, descend_nil,
    lead_joinText, String.append_empty, String.append_assoc]

theorem components_join_name_slash (p : Path) (name : Name) :
    (p.join (((⟨""⟩ : Path).descend [name]).join ⟨""⟩)).components =
      (p.descend [name]).components := by
  rw [join_name_slash, components_join_empty]

theorem endsInSlash_join_name_slash (p : Path) (name : Name) :
    (p.join (((⟨""⟩ : Path).descend [name]).join ⟨""⟩)).endsInSlash = true := by
  rw [join_name_slash, join_of_relative _ (by rfl), descend_cons, descend_nil, lead_joinText,
    endsInSlash]
  simp

theorem exists_name_of_fileName? {p : Path} {text : String} (last : p.fileName? = some text) :
    ∃ name : Name, text = name.text := by
  rw [fileName?] at last
  split at last
  · rename_i name ends
    exact ⟨name, (Option.some.inj last).symm⟩
  · exact absurd last (by simp)

/-- Relative paths through names have the same components only if the names are the same. -/
theorem eq_of_same_descend_empty {names others : List Name}
    (same : ((⟨""⟩ : Path).descend names).same ((⟨""⟩ : Path).descend others) = true) :
    names = others := by
  rw [Path.same, beq_iff_eq, components_descend, components_descend] at same
  have injective : Function.Injective Component.normal := fun _ _ => Component.normal.inj
  exact List.map_injective_iff.mpr injective (List.append_cancel_left same)

/-! ## Paths into a directory -/

/-- Whether a path leads into the directory with a name: to something below it, or to something
directly in it if that is asked for. -/
def LeadsInto (dir : Name) (direct : Bool) (p : Path) : Prop :=
  ∃ way, way ≠ [] ∧ (direct = true → way.length = 1) ∧ p = (⟨""⟩ : Path).descend (dir :: way)

theorem LeadsInto.exists_descend {dir : Name} {direct : Bool} {p : Path}
    (leads : p.LeadsInto dir direct) : ∃ names, names ≠ [] ∧ p = (⟨""⟩ : Path).descend names := by
  obtain ⟨way, -, -, rfl⟩ := leads
  exact ⟨dir :: way, List.cons_ne_nil dir way, rfl⟩

/-- Paths that lead into directories have the same components only if they are the same. -/
theorem LeadsInto.eq_of_same {dir dir' : Name} {direct direct' : Bool} {p q : Path}
    (leads : p.LeadsInto dir direct) (leads' : q.LeadsInto dir' direct')
    (same : p.same q = true) : p = q := by
  obtain ⟨way, -, -, rfl⟩ := leads
  obtain ⟨way', -, -, rfl⟩ := leads'
  rw [eq_of_same_descend_empty same]

end Path
end PackageBuild
