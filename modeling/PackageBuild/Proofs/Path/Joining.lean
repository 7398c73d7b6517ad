import PackageBuild.Proofs.Path.Relatives
/-!
# Joined paths and what is seen of them

Joining with a relative path adds its components, but for a dot at its head. A path is seen from a
base as the components that it has beyond those of the base, however both are spelled. Seen from a
base elsewhere, a path through a last name still ends in that name, if it ends in a name at all.
-/

namespace PackageBuild

namespace Path

/-! ## Joining -/

/-- The components of a path without a dot at its head. -/
def inner (p : Path) : List Component := p.components.dropWhile (· = .current)

theorem inner_of_ne_current {p : Path} (no_dot : p.components.head? ≠ some .current) :
    p.inner = p.components := by
  rw [inner]
  cases components_eq : p.components with
  | nil => rfl
  | cons c cs =>
      rw [components_eq, List.head?_cons] at no_dot
      have other : c ≠ .current := fun same => no_dot (congrArg some same)
      exact List.dropWhile_cons_of_neg (by simpa using other)

private theorem dropWhile_current (pieces : List String) :
    (pieces.filterMap Component.ofPiece?).dropWhile (· = .current) =
      pieces.filterMap Component.ofPiece? := by
  rw [List.dropWhile_eq_self_iff]
  intro some_component current
  have member := List.getElem_mem some_component
  rw [of_decide_eq_true current, List.mem_filterMap] at member
  obtain ⟨piece, -, stands⟩ := member
  exact ofPiece?_ne (Or.inr rfl) piece stands

theorem filterMap_pieces {p : Path} (relative : p.isAbsolute = false) :
    (Text.pieces '/' p.text).filterMap Component.ofPiece? = p.inner := by
  rw [inner, components, tokens_eq_tokensOf]
  cases cut : Text.pieces '/' p.text with
  | nil => rfl
  | cons first rest =>
      have not_root : ¬(first = "" ∧ rest ≠ []) := by
        rw [← isAbsolute_iff cut, relative]
        exact Bool.false_ne_true
      have tail : (rest.map fun piece => (Component.ofPiece? piece, piece)).filterMap (·.1) =
          rest.filterMap Component.ofPiece? := by
        rw [List.filterMap_map]
        rfl
      have all : (tokensOf (first :: rest)).filterMap (·.1) =
          (headComponent first rest).toList ++ rest.filterMap Component.ofPiece? := by
        rw [tokensOf, List.filterMap_cons, tail]
        cases headComponent first rest <;> rfl
      rw [all, headComponent, if_neg not_root]
      by_cases dot : first = "."
      · have none_stands : Component.ofPiece? "." = none := by decide
        rw [if_pos dot, dot, List.filterMap_cons_none none_stands, Option.toList_some,
          List.singleton_append, List.dropWhile_cons_of_pos (by simp), dropWhile_current]
      · have whole : (Component.ofPiece? first).toList ++ rest.filterMap Component.ofPiece? =
            (first :: rest).filterMap Component.ofPiece? := by
          rw [List.filterMap_cons]
          cases Component.ofPiece? first <;> rfl
        rw [if_neg dot, whole, dropWhile_current]

private theorem tokensOf_append_of_closed {front back : List String} (some_front : front ≠ [])
    (some_back : back ≠ []) :
    tokensOf (front ++ back) = (tokensOf (front ++ [""])).dropLast ++
      back.map fun piece => (Component.ofPiece? piece, piece) := by
  cases front with
  | nil => exact absurd rfl some_front
  | cons first rest =>
      have head : headComponent first (rest ++ back) = headComponent first (rest ++ [""]) := by
        simp [headComponent, some_back]
      rw [List.cons_append, List.cons_append, tokensOf, tokensOf, head, List.map_append,
        List.map_append, List.map_singleton, ← List.cons_append, ← List.cons_append,
        List.dropLast_concat]

theorem tokens_join {p rest : Path} (some_text : p.text ≠ "") (relative : rest.isAbsolute = false) :
    (p.join rest).tokens = p.trunk ++
      (Text.pieces '/' rest.text).map fun piece => (Component.ofPiece? piece, piece) := by
  rw [join_of_relative p relative, tokens_eq_tokensOf, trunk, if_neg some_text, lead]
  by_cases slash : p.endsInSlash = true
  · obtain ⟨front, text⟩ := exists_text_of_endsInSlash slash
    have after : Text.pieces '/' p.text = Text.pieces '/' front ++ [""] := by
      have cut := Text.pieces_append_slash front ""
      rwa [String.append_empty, ← text] at cut
    rw [if_pos (Or.inr slash), if_pos slash, tokens_eq_tokensOf, after, text,
      Text.pieces_append_slash,
      tokensOf_append_of_closed (Text.pieces_ne_nil front) (Text.pieces_ne_nil rest.text)]
  · have proper : Text.pieces '/' p.text ≠ [""] := by
      intro single
      have joined := Text.join_pieces p.text
      rw [single, Text.join, String.intercalate_singleton] at joined
      exact some_text joined.symm
    rw [if_neg (not_or.mpr ⟨some_text, slash⟩), if_neg slash, Text.pieces_append_slash,
      tokensOf_append (Text.pieces_ne_nil p.text) proper, tokens_eq_tokensOf]

theorem components_join {p rest : Path} (some_text : p.text ≠ "")
    (relative : rest.isAbsolute = false) :
    (p.join rest).components = p.components ++ rest.inner := by
  rw [components, tokens_join some_text relative, List.filterMap_append, ← components_eq_trunk,
    List.filterMap_map, ← filterMap_pieces relative]
  rfl

theorem join_empty (rest : Path) : (⟨""⟩ : Path).join rest = rest := by
  rw [join]
  split
  · rfl
  · simp

/-- Joining with a relative path adds its components, at an empty path with a dot at their head. -/
theorem components_join_of_relative (base : Path) {rest : Path}
    (relative : rest.isAbsolute = false) :
    (base.join rest).components =
      base.components ++ if base.text = "" then rest.components else rest.inner := by
  by_cases empty : base.text = ""
  · obtain rfl : base = ⟨""⟩ := by rw [← empty]
    rw [join_empty, if_pos empty]
    rfl
  · rw [components_join empty relative, if_neg empty]

/-! ## Paths seen from a base -/

theorem stripTokens_eq_some {cs : List Component} {tokens rest : List (Option Component × String)}
    (stripped : stripTokens cs tokens = some rest) :
    ∃ front, tokens = front ++ rest ∧ front.filterMap (·.1) = cs := by
  induction cs, tokens using stripTokens.induct with
  | case1 tokens => exact ⟨[], by simpa [stripTokens] using stripped, rfl⟩
  | case2 c cs => exact absurd stripped (by simp [stripTokens])
  | case3 c cs text tokens induction =>
      obtain ⟨front, whole, components⟩ := induction (by simpa [stripTokens] using stripped)
      exact ⟨(none, text) :: front, by rw [whole, List.cons_append], by simpa using components⟩
  | case4 cs c text tokens induction =>
      obtain ⟨front, whole, components⟩ := induction (by simpa [stripTokens] using stripped)
      exact ⟨(some c, text) :: front, by rw [whole, List.cons_append], by simp [components]⟩
  | case5 c cs d text tokens different =>
      exact absurd stripped (by simp [stripTokens, different])

theorem exists_stripTokens {cs more : List Component} {tokens : List (Option Component × String)}
    (whole : tokens.filterMap (·.1) = cs ++ more) : ∃ rest, stripTokens cs tokens = some rest := by
  induction cs, tokens using stripTokens.induct with
  | case1 tokens => exact ⟨tokens, by simp [stripTokens]⟩
  | case2 c cs => exact absurd whole (by simp)
  | case3 c cs text tokens induction =>
      obtain ⟨rest, stripped⟩ := induction (by simpa using whole)
      exact ⟨rest, by simpa [stripTokens] using stripped⟩
  | case4 c cs text tokens induction =>
      obtain ⟨rest, stripped⟩ := induction (by simpa using whole)
      exact ⟨rest, by simpa [stripTokens] using stripped⟩
  | case5 c cs d text tokens different =>
      exact absurd (List.cons.inj (by simpa using whole)).1.symm different

/-- The token of a piece that is not the first one. -/
def Later (token : Option Component × String) : Prop :=
  token.1 = Component.ofPiece? token.2 ∧ '/' ∉ token.2.toList

theorem later_of_mem_tail {p : Path} {token : Option Component × String}
    (member : token ∈ p.tokens.tail) : Later token := by
  have piece : token.2 ∈ Text.pieces '/' p.text := by
    rw [← map_snd_tokens]
    exact List.mem_map_of_mem (List.mem_of_mem_tail member)
  refine ⟨?_, Text.not_mem_of_mem_pieces piece⟩
  rw [tokens_eq_tokensOf] at member
  cases cut : Text.pieces '/' p.text with
  | nil => exact absurd cut (Text.pieces_ne_nil p.text)
  | cons first rest =>
      rw [cut, tokensOf, List.tail_cons] at member
      obtain ⟨text, -, rfl⟩ := List.mem_map.mp member
      rfl

theorem tokens_ofTokens_of_later {c : Component} {text : String}
    {more : List (Option Component × String)} (first : Later (some c, text))
    (later : ∀ token ∈ more, Later token) :
    (ofTokens ((some c, text) :: more)).tokens = (some c, text) :: more := by
  obtain ⟨stands, free⟩ := first
  dsimp only at stands free
  have not_root : ((some c, text) :: more).map (·.1) ≠ [some .root] := by
    intro rooted
    rw [List.map_cons, stands] at rooted
    exact ofPiece?_ne (Or.inl rfl) text (List.cons.inj rooted).1
  have all_free : ∀ piece ∈ ((some c, text) :: more).map (·.2), '/' ∉ piece.toList := by
    rw [List.map_cons, List.forall_mem_cons]
    refine ⟨free, fun piece member => ?_⟩
    obtain ⟨token, in_more, rfl⟩ := List.mem_map.mp member
    exact (later token in_more).2
  have head : headComponent text (more.map (·.2)) = some c := by
    have some_text : text ≠ "" := by
      rintro rfl
      have none_stands : Component.ofPiece? "" = none := by decide
      exact absurd (stands.trans none_stands) (by simp)
    have not_dot : text ≠ "." := by
      rintro rfl
      have none_stands : Component.ofPiece? "." = none := by decide
      exact absurd (stands.trans none_stands) (by simp)
    rw [headComponent, if_neg (fun rooted => some_text rooted.1), if_neg not_dot, stands]
  have tail : (more.map (·.2)).map (fun piece => (Component.ofPiece? piece, piece)) = more := by
    have each : ∀ token ∈ more, (Component.ofPiece? token.2, token.2) = token :=
      fun token member => Prod.ext (later token member).1.symm rfl
    rw [List.map_map]
    exact (List.map_congr_left each).trans (List.map_id more)
  rw [ofTokens, if_neg not_root, tokens_eq_tokensOf, Text.pieces_join (by simp) all_free,
    List.map_cons, tokensOf, head, tail]

theorem filterMap_dropWhile_isNone (tokens : List (Option Component × String)) :
    (tokens.dropWhile (·.1.isNone)).filterMap (·.1) = tokens.filterMap (·.1) := by
  induction tokens with
  | nil => rfl
  | cons token tokens induction =>
      obtain ⟨component, text⟩ := token
      cases component with
      | none => simpa using induction
      | some c => simp

/-- The last tokens of a path that stand for anything make a path with these tokens. -/
theorem tokens_ofTokens_of_back {p : Path} {front rest : List (Option Component × String)}
    (whole : p.tokens = front ++ rest) (some_front : front ≠ [])
    (some_left : trimEnd (rest.dropWhile (·.1.isNone)) ≠ []) :
    (ofTokens (trimEnd (rest.dropWhile (·.1.isNone)))).tokens =
      trimEnd (rest.dropWhile (·.1.isNone)) := by
  have kept : trimEnd (rest.dropWhile (·.1.isNone)) <:+: rest :=
    (trimEnd_isFront _).isInfix.trans (List.dropWhile_suffix _).isInfix
  have later : ∀ token ∈ trimEnd (rest.dropWhile (·.1.isNone)), Later token := by
    intro token member
    apply later_of_mem_tail (p := p)
    rw [whole, List.tail_append_of_ne_nil some_front]
    exact List.mem_append_right _ (kept.subset member)
  obtain ⟨token, more, tokens⟩ := List.exists_cons_of_ne_nil some_left
  rw [tokens, List.forall_mem_cons] at later
  obtain ⟨component, text⟩ := token
  have first : component ≠ none := by
    obtain ⟨back, before⟩ := trimEnd_isFront (rest.dropWhile (·.1.isNone))
    have stops := List.head?_dropWhile_not (·.1.isNone) rest
    rw [← before, tokens] at stops
    exact Option.isSome_iff_ne_none.mp (by simpa using stops)
  obtain ⟨c, rfl⟩ := Option.ne_none_iff_exists'.mp first
  rw [tokens, tokens_ofTokens_of_later later.1 later.2]

theorem components_ofTokens_of_back {p : Path} {front rest : List (Option Component × String)}
    (whole : p.tokens = front ++ rest) (some_front : front ≠ []) :
    (ofTokens (trimEnd (rest.dropWhile (·.1.isNone)))).components = rest.filterMap (·.1) := by
  rw [← filterMap_dropWhile_isNone rest, ← filterMap_trimEnd]
  by_cases nothing : trimEnd (rest.dropWhile (·.1.isNone)) = []
  · rw [nothing]
    rfl
  · rw [components, tokens_ofTokens_of_back whole some_front nothing]

/-- A path is seen from a base whose components it starts with as what follows them. -/
theorem components_strip? {base p rest : Path} (stripped : strip? base p = some rest) :
    p.components = base.components ++ rest.components := by
  rw [strip?] at stripped
  cases components_eq : base.components with
  | nil =>
      rw [components_eq] at stripped
      rw [← Option.some.inj stripped, components_ofTokens_of_front (trimEnd_isFront p.tokens),
        filterMap_trimEnd]
      rfl
  | cons c cs =>
      rw [components_eq] at stripped
      obtain ⟨tokens, taken, rfl⟩ := Option.map_eq_some_iff.mp stripped
      obtain ⟨front, whole, front_components⟩ := stripTokens_eq_some taken
      have some_front : front ≠ [] := by
        rintro rfl
        exact absurd front_components (by simp)
      rw [components_ofTokens_of_back whole some_front, ← front_components,
        ← List.filterMap_append, ← whole, components]

theorem exists_strip?_of_below {base p : Path} {more : List Component}
    (below : p.components = base.components ++ more) : ∃ rest, strip? base p = some rest := by
  rw [strip?]
  cases components_eq : base.components with
  | nil => exact ⟨_, rfl⟩
  | cons c cs =>
      rw [components, components_eq] at below
      obtain ⟨rest, taken⟩ := exists_stripTokens below
      exact ⟨ofTokens (trimEnd (rest.dropWhile (·.1.isNone))),
        by simp only [taken, Option.map_some]⟩

/-- A path below a base is seen from there as what follows the components of the base. -/
theorem components_under {base p : Path} {more : List Component}
    (below : p.components = base.components ++ more) : (base.under p).components = more := by
  obtain ⟨rest, stripped⟩ := exists_strip?_of_below below
  rw [under, stripped]
  have whole := components_strip? stripped
  rw [below] at whole
  exact (List.append_cancel_left whole).symm

/-- A path is absolute exactly if it starts with the root. -/
theorem head?_components_iff {p : Path} :
    p.components.head? = some .root ↔ p.isAbsolute = true := by
  rw [components, tokens_eq_tokensOf]
  cases cut : Text.pieces '/' p.text with
  | nil => exact absurd cut (Text.pieces_ne_nil p.text)
  | cons first rest =>
      rw [isAbsolute_iff cut]
      constructor
      · intro rooted
        by_contra not_root
        obtain ⟨more, whole⟩ := List.head?_eq_some_iff.mp rooted
        have member : Component.root ∈ (tokensOf (first :: rest)).filterMap (·.1) := by
          rw [whole]
          exact List.mem_cons_self
        obtain ⟨token, in_tokens, stands⟩ := List.mem_filterMap.mp member
        rcases List.mem_cons.mp in_tokens with rfl | in_rest
        · dsimp only at stands
          rw [headComponent, if_neg not_root] at stands
          split at stands
          · exact absurd stands (by simp)
          · exact ofPiece?_ne (Or.inl rfl) first stands
        · obtain ⟨piece, -, rfl⟩ := List.mem_map.mp in_rest
          exact ofPiece?_ne (Or.inl rfl) piece stands
      · intro root
        rw [tokensOf, headComponent, if_pos root]
        rfl

/-- An absolute path keeps its components when it is seen from a relative base. -/
theorem components_under_of_relative {base p : Path} (relative : base.isAbsolute = false)
    (absolute : p.isAbsolute = true) : (base.under p).components = p.components := by
  rw [under]
  split
  · rename_i rest stripped
    have whole := components_strip? stripped
    cases components_eq : base.components with
    | nil => rw [whole, components_eq, List.nil_append]
    | cons c cs =>
        have rooted := head?_components_iff.mpr absolute
        rw [whole, components_eq, List.cons_append, List.head?_cons] at rooted
        have base_rooted : base.components.head? = some .root := by
          rw [components_eq, List.head?_cons, rooted]
        rw [head?_components_iff.mp base_rooted] at relative
        exact absurd relative (by simp)
  · rw [absolute, relative, if_neg (by simp)]

theorem eq_nil_of_between_nil {target base : List Component}
    (led : between true target base = some []) : target = [] := by
  cases base with
  | nil => simpa [between] using led
  | cons b base =>
      cases target with
      | nil => rfl
      | cons a target =>
          rw [between] at led
          split at led
          · simp_all
          · split at led
            · simp at led
            · split at led <;> simp at led

private theorem last_cons {a c : Component} {rest : List Component}
    (last : (a :: rest).getLast? = some c) : rest = [] ∧ c = a ∨ rest.getLast? = some c := by
  cases rest with
  | nil => exact Or.inl ⟨rfl, (Option.some.inj last).symm⟩
  | cons b rest => exact Or.inr (by rwa [List.getLast?_cons_cons] at last)

private theorem last_of_rest {a c : Component} {rest : List Component}
    (last : rest.getLast? = some c) : (a :: rest).getLast? = some c := by
  rw [List.getLast?_cons, last]
  rfl

theorem last_of_between {started : Bool} {target base steps : List Component} {c : Component}
    (led : between started target base = some steps) (last : steps.getLast? = some c) :
    c = .parent ∨ target.getLast? = some c := by
  induction started, target, base using between.induct generalizing steps with
  | case1 started target =>
      rw [between] at led
      exact Or.inr (Option.some.inj led ▸ last)
  | case2 started b base induction =>
      rw [between] at led
      obtain ⟨rest, onward, rfl⟩ := Option.map_eq_some_iff.mp led
      rcases last_cons last with ⟨-, up⟩ | last
      · exact Or.inl up
      · exact induction onward last
  | case3 started a target b base common induction =>
      rw [between, if_pos common] at led
      exact (induction led last).imp_right last_of_rest
  | case4 started a target base different induction =>
      rw [between, if_neg different, if_pos rfl] at led
      obtain ⟨rest, onward, rfl⟩ := Option.map_eq_some_iff.mp led
      rcases last_cons last with ⟨rfl, rfl⟩ | last
      · rw [eq_nil_of_between_nil onward]
        exact Or.inr rfl
      · exact (induction onward last).imp_right last_of_rest
  | case5 started a target base different other =>
      rw [between, if_neg different, if_neg other, if_pos rfl] at led
      exact absurd led (by simp)
  | case6 started a target b base different not_current not_parent =>
      rw [between, if_neg different, if_neg not_current, if_neg not_parent] at led
      rw [← Option.some.inj led,
        List.getLast?_append_of_ne_nil _ (List.cons_ne_nil a target)] at last
      exact Or.inr last

theorem components_joinText (p : Path) {c : Component} (not_root : c ≠ .root)
    (not_dot : c ≠ .current) : (p.joinText c.text).components = p.components ++ [c] := by
  cases c with
  | root => exact absurd rfl not_root
  | current => exact absurd rfl not_dot
  | parent =>
      have up : (⟨".."⟩ : Path).components = [.parent] := by decide +kernel
      have inner : (⟨".."⟩ : Path).inner = [.parent] := by decide +kernel
      rw [Component.text, joinText, components_join_of_relative p (by decide), up, inner, ite_self]
  | normal name =>
      have below := p.components_descend [name]
      rwa [descend_cons, descend_nil, List.map_singleton] at below

theorem components_ofComponents {cs : List Component} (rootless : Component.root ∉ cs)
    (dotless : Component.current ∉ cs) : (ofComponents cs).components = cs := by
  induction cs using List.reverseRecOn with
  | nil => rfl
  | append_singleton cs c induction =>
      rw [List.mem_append, List.mem_singleton, not_or] at rootless dotless
      rw [ofComponents, List.foldl_concat, ← ofComponents,
        components_joinText _ (Ne.symm rootless.2) (Ne.symm dotless.2),
        induction rootless.1 dotless.1]

theorem components_join_of_dotless (base : Path) {rest : Path}
    (rootless : Component.root ∉ rest.components) (dotless : Component.current ∉ rest.components) :
    (base.join rest).components = base.components ++ rest.components := by
  have relative : rest.isAbsolute = false := by
    rw [← Bool.not_eq_true, ← head?_components_iff]
    exact fun head => rootless (List.mem_of_head? head)
  have kept : rest.inner = rest.components :=
    inner_of_ne_current fun head => dotless (List.mem_of_head? head)
  rw [components_join_of_relative base relative, kept, ite_self]

theorem last_ofComponents {cs : List Component} {c : Component} {name : Name}
    (ends : cs.getLast? = some c) (step : c = .parent ∨ c = .normal name) :
    (ofComponents cs).components.getLast? = some c := by
  obtain ⟨front, rfl⟩ := List.getLast?_eq_some_iff.mp ends
  obtain ⟨not_root, not_dot⟩ : c ≠ .root ∧ c ≠ .current := by
    rcases step with rfl | rfl <;> simp
  rw [ofComponents, List.foldl_concat, ← ofComponents, components_joinText _ not_root not_dot,
    List.getLast?_concat]

/-- Seen from anywhere, a path through a last name ends in that name, if in a name at all. -/
theorem last_under {base p : Path} {name other : Name}
    (ends : (base.under (p.descend [name])).components.getLast? = some (.normal other)) :
    other = name := by
  have last : (p.descend [name]).components.getLast? = some (.normal name) := by
    rw [components_descend, List.map_singleton, List.getLast?_concat]
  rw [under] at ends
  split at ends
  · rename_i rest stripped
    rw [components_strip? stripped, List.getLast?_append, ends] at last
    exact Component.normal.inj (Option.some.inj last)
  · split at ends
    · split at ends
      · rename_i steps led
        cases step : steps.getLast? with
        | none =>
            rw [List.getLast?_eq_none_iff] at step
            have none_stands : (ofComponents []).components = [] := rfl
            rw [step, none_stands] at ends
            exact absurd ends (by simp)
        | some c =>
            have kind : c = .parent ∨ c = .normal name :=
              (last_of_between led step).imp_right fun same =>
                Option.some.inj (same.symm.trans last)
            rw [last_ofComponents step kind] at ends
            obtain rfl := Option.some.inj ends
            rcases kind with up | same
            · exact absurd up (by simp)
            · exact Component.normal.inj same
      · exact Component.normal.inj (Option.some.inj (ends.symm.trans last))
    · exact Component.normal.inj (Option.some.inj (ends.symm.trans last))

end Path
end PackageBuild
