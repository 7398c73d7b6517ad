import Mathlib.Data.Set.List
import PackageBuild.Proofs.FileTree.Resolution
import PackageBuild.Proofs.Path.Joining
/-!
# Paths through names

A relative path that never steps up goes through names. However it is spelled, it leads from where a
base leads to what these names lead to, and what is below it is seen from the base through all the
names on the way.
-/

namespace PackageBuild

namespace Path

variable {p q base dir : Path} {names way : List Name}

/-- Whether a relative path goes through these names and nothing else. How often its names are
separated and whether it starts with a dot makes no difference. -/
def Through (p : Path) (names : List Name) : Prop := p.inner = names.map .normal

instance (p : Path) (names : List Name) : Decidable (p.Through names) :=
  inferInstanceAs (Decidable (_ = _))

theorem Through.unique {others : List Name} (through : p.Through names)
    (through' : p.Through others) : names = others := by
  have injective : Function.Injective Component.normal := fun _ _ => Component.normal.inj
  exact List.map_injective_iff.mpr injective (through.symm.trans through')

theorem dropWhile_current_normal (names : List Name) :
    (names.map Component.normal).dropWhile (· = .current) = names.map .normal := by
  cases names with
  | nil => rfl
  | cons name names => simp

theorem through_of_components (components : p.components = names.map .normal) :
    p.Through names := by
  rw [Through, inner, components, dropWhile_current_normal]

/-- A path that goes on with names goes through these as well. -/
theorem Through.append (through : q.Through names)
    (components : p.components = q.components ++ way.map .normal) : p.Through (names ++ way) := by
  rw [Through, inner] at through
  rw [Through, inner, components, List.dropWhile_append, through, List.map_append]
  cases names with
  | nil => simp [dropWhile_current_normal]
  | cons name names => simp

theorem Through.relative (through : p.Through names) : p.isAbsolute = false := by
  rw [← Bool.not_eq_true, ← head?_components_iff]
  intro rooted
  rw [Through, inner_of_ne_current (by rw [rooted]; simp)] at through
  rw [through] at rooted
  cases names <;> simp at rooted

theorem exists_through (relative : p.isAbsolute = false) (straight : p.Straight) :
    ∃ names, p.Through names := by
  have named : ∀ c ∈ p.inner, c ∈ Set.range Component.normal := by
    intro c member
    have in_path : c ∈ p.components := (List.dropWhile_suffix _).subset member
    rw [← filterMap_pieces relative, List.mem_filterMap] at member
    obtain ⟨piece, -, stands⟩ := member
    cases c with
    | root => exact absurd stands (ofPiece?_ne (Or.inl rfl) piece)
    | current => exact absurd stands (ofPiece?_ne (Or.inr rfl) piece)
    | parent => exact absurd in_path straight
    | normal name => exact ⟨name, rfl⟩
  have listed : p.inner ∈ Set.range (List.map Component.normal) := by
    rw [Set.range_list_map]
    exact named
  obtain ⟨names, through⟩ := listed
  exact ⟨names, through.symm⟩

/-! ## Where they lead -/

/-- A path through names leads down these names. -/
theorem Through.land (through : p.Through names) (here : Location) :
    p.land here = here ++ names := by
  have no_step : p.components.foldl Component.advance here =
      p.inner.foldl Component.advance here := by
    rw [inner]
    induction p.components with
    | nil => rfl
    | cons c cs induction =>
        by_cases dot : c = .current
        · simp [dot, Component.advance, induction]
        · simp [dot]
  rw [Path.land, no_step, through, foldl_normal]

theorem steps_of_relative (relative : p.isAbsolute = false) :
    p.steps =
      (Text.pieces '/' p.text).map fun piece => (Component.ofPiece? piece).getD .current := by
  rw [steps, tokens_eq_tokensOf]
  cases cut : Text.pieces '/' p.text with
  | nil => rfl
  | cons first rest =>
      have not_root : ¬(first = "" ∧ rest ≠ []) := by
        rw [← isAbsolute_iff cut, relative]
        exact Bool.false_ne_true
      rw [tokensOf, List.map_cons, List.map_cons, List.map_map, headComponent, if_neg not_root]
      by_cases dot : first = "."
      · have none_stands : Component.ofPiece? "." = none := by decide
        rw [if_pos dot, dot, none_stands]
        rfl
      · rw [if_neg dot]
        rfl

/-- The steps along a joined path are those along the base and then those along the rest. -/
theorem steps_join (base : Path) (relative : p.isAbsolute = false) :
    (base.join p).steps = base.trunkSteps ++ p.steps := by
  by_cases empty : base.text = ""
  · obtain rfl : base = ⟨""⟩ := by rw [← empty]
    rw [join_empty]
    rfl
  · rw [steps, tokens_join empty relative, List.map_append, List.map_map,
      steps_of_relative relative, trunkSteps]
    rfl

theorem steps_ne_nil (p : Path) : p.steps ≠ [] := by
  have pieces := Text.pieces_ne_nil p.text
  rw [← map_snd_tokens, ne_eq, List.map_eq_nil_iff] at pieces
  rwa [steps, ne_eq, List.map_eq_nil_iff]

theorem Through.mem_steps (through : p.Through names) {step : Component}
    (member : step ∈ p.steps) : step = .current ∨ ∃ name, step = .normal name := by
  rw [steps_of_relative through.relative] at member
  obtain ⟨piece, cut, rfl⟩ := List.mem_map.mp member
  cases stands : Component.ofPiece? piece with
  | none => exact Or.inl rfl
  | some c =>
      have inside : c ∈ p.inner := by
        rw [← filterMap_pieces through.relative]
        exact List.mem_filterMap.mpr ⟨piece, cut, stands⟩
      rw [through] at inside
      obtain ⟨name, -, rfl⟩ := List.mem_map.mp inside
      exact Or.inr ⟨name, rfl⟩

theorem Through.land_join (through : p.Through names) (base : Path) (here : Location) :
    (base.join p).land here = base.land here ++ names := by
  rw [← foldl_steps, steps_join base through.relative, List.foldl_append, foldl_trunkSteps,
    foldl_steps, through.land]

/-! ## What is seen through them -/

/-- Whether a path ends in a name, with no slash or dot behind it. -/
def EndsIn (p : Path) (name : Name) : Prop := ∃ front, p.tokens = front ++ [name.token]

theorem endsIn_descend (p : Path) (front : List Name) (name : Name) :
    (p.descend (front ++ [name])).EndsIn name := by
  have some_name := List.append_ne_nil_of_right_ne_nil front (List.cons_ne_nil name [])
  rw [EndsIn, tokens_descend p some_name, List.map_append, ← List.append_assoc]
  exact ⟨_, rfl⟩

theorem EndsIn.ofTokens_tokens {name : Name} (ends : p.EndsIn name) : ofTokens p.tokens = p := by
  obtain ⟨front, tokens⟩ := ends
  have not_root : p.tokens.map (·.1) ≠ [some .root] := by
    intro rooted
    have last := congrArg List.getLast? rooted
    rw [tokens, List.map_append, List.map_singleton, List.getLast?_concat] at last
    simp [Name.token] at last
  rw [ofTokens, if_neg not_root, map_snd_tokens, Text.join_pieces]

/-- What follows a base in a path that ends in a name ends in that name. -/
theorem EndsIn.strip? {name : Name} {rest : Path} (ends : p.EndsIn name)
    (stripped : base.strip? p = some rest) (further : rest.components ≠ []) :
    rest.EndsIn name := by
  have whole := ends.ofTokens_tokens
  obtain ⟨front, tokens⟩ := ends
  have trimmed : trimEnd (front ++ [name.token]) = front ++ [name.token] :=
    trimEnd_concat_some front _ _
  rw [Path.strip?] at stripped
  cases components_eq : base.components with
  | nil =>
      rw [components_eq, tokens, trimmed, ← tokens, whole] at stripped
      rw [← Option.some.inj stripped]
      exact ⟨front, tokens⟩
  | cons c cs =>
      rw [components_eq] at stripped
      obtain ⟨others, taken, rfl⟩ := Option.map_eq_some_iff.mp stripped
      obtain ⟨before, cut, before_components⟩ := stripTokens_eq_some taken
      have some_before : before ≠ [] := by
        rintro rfl
        exact absurd before_components (by simp)
      have some_left : others ≠ [] := by
        rintro rfl
        exact further rfl
      obtain ⟨back, rfl⟩ : ∃ back, others = back ++ [name.token] := by
        rw [← List.getLast?_eq_some_iff]
        have last := congrArg List.getLast? (tokens.symm.trans cut)
        rwa [List.getLast?_concat, List.getLast?_append_of_ne_nil _ some_left, eq_comm] at last
      obtain ⟨kept, dropped⟩ : ∃ kept,
          (back ++ [name.token]).dropWhile (·.1.isNone) = kept ++ [name.token] := by
        rw [List.dropWhile_append]
        split
        · exact ⟨[], by simp [Name.token]⟩
        · exact ⟨_, rfl⟩
      have all : trimEnd ((back ++ [name.token]).dropWhile (·.1.isNone)) =
          kept ++ [name.token] := by
        rw [dropped]
        exact trimEnd_concat_some kept _ _
      have tokens_eq := tokens_ofTokens_of_back cut some_before (by simp [all])
      exact ⟨kept, tokens_eq.trans all⟩

/-- What is below a directory of a base is seen from the base through the names of the directory and
those on the way from there, the last of which comes last. -/
theorem through_under (through : dir.Through names) (front : List Name) (name : Name) :
    let seen := base.under ((base.join dir).descend (front ++ [name]))
    seen.Through (names ++ (front ++ [name])) ∧ seen.EndsIn name ∧
      (base.text ≠ "" → seen.components = seen.inner) := by
  intro seen
  have whole : ((base.join dir).descend (front ++ [name])).components = base.components ++
      ((if base.text = "" then dir.components else dir.inner) ++
        (front ++ [name]).map .normal) := by
    rw [components_descend, components_join_of_relative base through.relative, List.append_assoc]
  have components : seen.components = (if base.text = "" then dir.components else dir.inner) ++
      (front ++ [name]).map .normal := components_under whole
  have ends : seen.EndsIn name := by
    obtain ⟨rest, stripped⟩ := exists_strip?_of_below whole
    have rest_eq : seen = rest := by
      show base.under _ = rest
      rw [under, stripped]
    have further := components
    rw [rest_eq] at further ⊢
    exact (endsIn_descend _ front name).strip? stripped (by simp [further])
  by_cases empty : base.text = ""
  · rw [if_pos empty] at components
    exact ⟨through.append components, ends, fun filled => absurd empty filled⟩
  · rw [if_neg empty, through, ← List.map_append] at components
    have seen_through := through_of_components components
    exact ⟨seen_through, ends, fun _ => by rw [components, seen_through]⟩

end Path

namespace FileTree

variable {t : FileTree} {p base : Path} {l : Location} {names : List Name} {name : Name}

theorem opens_of_find_join (free : t.LinkFree) (through : p.Through names) {e : Entry}
    (found : t.find (base.join p) = .ok (l, e)) : t.Opens base (base.land t.here) := by
  have led := ((find_eq_ok_iff free).mp found).2.1
  rw [Path.steps_join base through.relative, tread_append_eq_ok_iff] at led
  obtain ⟨k, led, onward⟩ := led
  have directory : t.lookup? k = some .directory := by
    obtain ⟨step, rest, steps⟩ := List.exists_cons_of_ne_nil p.steps_ne_nil
    rw [steps, tread_cons_eq_ok_iff] at onward
    rcases onward.1 with rooted | directory
    · rcases through.mem_steps (steps ▸ List.mem_cons_self) with dot | ⟨name, stands⟩
      · exact absurd (rooted.symm.trans dot) (by simp)
      · exact absurd (rooted.symm.trans stands) (by simp)
    · exact directory
  have opens : t.Opens base k := ⟨led, directory⟩
  rwa [← opens.eq_land]

/-- What lies below where a base opens is found at every path through its names that ends in the
last of them. -/
theorem find_join_of_through (free : t.LinkFree) (opens : t.Opens base l)
    (through : p.Through names) (ends : p.EndsIn name) {e : Entry}
    (there : t.lookup? (l ++ names) = some e) : t.find (base.join p) = .ok (l ++ names, e) := by
  obtain ⟨front, tokens⟩ := ends
  have steps : p.steps = (front.map fun token => token.1.getD .current) ++ [.normal name] := by
    rw [Path.steps, tokens, List.map_append]
    rfl
  generalize front.map (fun token => token.1.getD .current) = before at steps
  have arrive : before.foldl Component.advance l ++ [name] = l ++ names := by
    have land := Path.foldl_steps l p
    rw [steps, List.foldl_append, through.land] at land
    exact land
  have parent : t.lookup? (before.foldl Component.advance l) = some .directory := by
    have above := lookup?_dropLast there
    rwa [← arrive, List.dropLast_concat] at above
  have plain {step : Component} (member : step ∈ before) : step ≠ .root ∧ step ≠ .parent := by
    have kind := through.mem_steps (steps ▸ List.mem_append_left _ member)
    rcases kind with rfl | ⟨name, rfl⟩ <;> simp
  have led : t.tread t.here (base.join p).steps = .ok (l ++ names) := by
    rw [Path.steps_join base through.relative, tread_append_eq_ok_iff]
    refine ⟨l, opens.1, ?_⟩
    rw [steps, tread_append_eq_ok_iff]
    refine ⟨_, tread_of_straight (fun member => (plain member).1 rfl)
      (fun member => (plain member).2 rfl) parent, ?_⟩
    rw [← arrive]
    exact tread_cons_eq_ok_iff.mpr ⟨Or.inr parent, rfl⟩
  have some_text : (base.join p).text ≠ "" := by
    intro empty
    have alone : (base.join p).steps = [.current] := by
      have path_eq : base.join p = ⟨""⟩ := by rw [← empty]
      rw [path_eq]
      rfl
    rw [Path.steps_join base through.relative, steps, ← List.append_assoc] at alone
    have last := congrArg List.getLast? alone
    rw [List.getLast?_concat] at last
    simp at last
  exact (find_eq_ok_iff free).mpr ⟨some_text, led, there⟩

end FileTree
end PackageBuild
