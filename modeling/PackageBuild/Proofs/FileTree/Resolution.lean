import PackageBuild.Proofs.FileTree.Lookup
import PackageBuild.Proofs.Outcome
import PackageBuild.Proofs.Path.Relatives
/-!
# Where paths lead

In a tree without links a path leads to one location at most, which its components fix, and it leads
there exactly if all the directories on the way exist.
-/

namespace PackageBuild

namespace Component

/-- Where a component leads from a location. -/
def advance (l : Location) : Component → Location
  | .root => []
  | .current => l
  | .parent => l.dropLast
  | .normal name => l ++ [name]

end Component

namespace Path

/-- The location that the components of a path stand for, as seen from a directory. -/
def land (here : Location) (p : Path) : Location := p.components.foldl Component.advance here

/-- The steps along a path up to where a name can follow. -/
def trunkSteps (p : Path) : List Component := p.trunk.map fun token => token.1.getD .current

theorem steps_eq_trunkSteps_or (p : Path) :
    p.steps = p.trunkSteps ∧ p.text ≠ "" ∧ p.endsInSlash = false ∨
      p.steps = p.trunkSteps ++ [.current] ∧ (p.text = "" ∨ p.endsInSlash = true) := by
  rcases p.tokens_eq_trunk_or with ⟨tokens, plain⟩ | ⟨tokens, closed⟩
  · exact Or.inl ⟨by rw [steps, tokens, trunkSteps], plain⟩
  · refine Or.inr ⟨?_, closed⟩
    rw [steps, tokens, trunkSteps, List.map_append]
    rfl

theorem steps_descend (p : Path) {names : List Name} (some_name : names ≠ []) :
    (p.descend names).steps = p.trunkSteps ++ names.map .normal := by
  rw [steps, tokens_descend p some_name, List.map_append, trunkSteps, List.map_map]
  rfl

private theorem foldl_advance_tokens (here : Location)
    (tokens : List (Option Component × String)) :
    (tokens.map fun token => token.1.getD .current).foldl Component.advance here =
      (tokens.filterMap (·.1)).foldl Component.advance here := by
  induction tokens generalizing here with
  | nil => rfl
  | cons token tokens induction =>
      obtain ⟨component, text⟩ := token
      cases component with
      | none => simpa [Component.advance] using induction here
      | some c => simpa using induction (Component.advance here c)

theorem foldl_steps (here : Location) (p : Path) :
    p.steps.foldl Component.advance here = p.land here :=
  foldl_advance_tokens here p.tokens

theorem foldl_trunkSteps (here : Location) (p : Path) :
    p.trunkSteps.foldl Component.advance here = p.land here := by
  rw [trunkSteps, foldl_advance_tokens, land, components_eq_trunk]

theorem foldl_normal (l : Location) (names : List Name) :
    (names.map Component.normal).foldl Component.advance l = l ++ names := by
  induction names generalizing l with
  | nil => simp
  | cons name names induction => simp [induction, Component.advance]

/-- A path that goes on with names stands for the location below. -/
theorem land_descend (here : Location) (p : Path) (names : List Name) :
    (p.descend names).land here = p.land here ++ names := by
  rw [land, components_descend, List.foldl_append, foldl_normal, land]

theorem land_congr {p q : Path} (same : p.components = q.components) (here : Location) :
    p.land here = q.land here := congrArg (·.foldl Component.advance here) same

/-- Whether a location is where a path or one of its ancestors stands for. -/
def Passes (here : Location) (p : Path) (k : Location) : Prop :=
  ∃ front, front ≠ [] ∧ front <+: p.components ∧ k = front.foldl Component.advance here

theorem Passes.of_descend {here k : Location} {p q : Path} {names : List Name}
    (shorter : q.components <+: (p.descend names).components) (passes : q.Passes here k) :
    p.Passes here k ∨ ∃ front, front ≠ [] ∧ front <+: names ∧ k = p.land here ++ front := by
  obtain ⟨steps, some_component, above, rfl⟩ := passes
  have on_way := above.trans shorter
  rw [components_descend] at on_way
  rcases List.prefix_or_prefix_of_prefix on_way (List.prefix_append p.components _) with
    before | ⟨rest, rfl⟩
  · exact Or.inl ⟨steps, some_component, before, rfl⟩
  · rw [List.prefix_append_right_inj] at on_way
    obtain ⟨front, further, rfl⟩ : ∃ front, front <+: names ∧ rest = front.map .normal :=
      List.prefix_map_iff.mp on_way
    by_cases whole : front = []
    · rw [whole, List.map_nil, List.append_nil] at some_component ⊢
      exact Or.inl ⟨p.components, some_component, List.prefix_rfl, rfl⟩
    · exact Or.inr ⟨front, whole, further, by rw [List.foldl_append, foldl_normal, land]⟩

/-- Whether a path never steps up. -/
def Straight (p : Path) : Prop := Component.parent ∉ p.components

instance (p : Path) : Decidable p.Straight := inferInstanceAs (Decidable (_ ∉ _))

theorem root_not_mem_tail_tokens (p : Path) :
    ∀ token ∈ p.tokens.tail, token.1 ≠ some .root := by
  rw [tokens_eq_tokensOf]
  intro token member
  cases cut : Text.pieces '/' p.text with
  | nil => exact absurd cut (Text.pieces_ne_nil p.text)
  | cons first rest =>
      rw [cut, tokensOf, List.tail_cons] at member
      obtain ⟨piece, -, rfl⟩ := List.mem_map.mp member
      exact ofPiece?_ne (Or.inl rfl) piece

theorem root_not_mem_tail_components (p : Path) : Component.root ∉ p.components.tail := by
  have others := p.root_not_mem_tail_tokens
  rw [components]
  cases tokens : p.tokens with
  | nil => simp
  | cons token rest =>
      rw [tokens, List.tail_cons] at others
      have in_rest : Component.root ∉ rest.filterMap (·.1) := by
        rw [List.mem_filterMap]
        rintro ⟨token, member, root⟩
        exact others token member root
      obtain ⟨component, text⟩ := token
      cases component with
      | none => exact fun member => in_rest (List.mem_of_mem_tail (by simpa using member))
      | some c => simpa using in_rest

theorem root_not_mem_tail_trunkSteps (p : Path) : Component.root ∉ p.trunkSteps.tail := by
  intro member
  rw [trunkSteps, ← List.map_tail] at member
  obtain ⟨token, in_tail, root⟩ := List.mem_map.mp member
  have in_tokens : token ∈ p.tokens.tail := by
    rcases p.tokens_eq_trunk_or with ⟨tokens, -⟩ | ⟨tokens, -⟩
    · rwa [tokens]
    · rw [tokens]
      cases trunk : p.trunk with
      | nil => simp [trunk] at in_tail
      | cons first rest =>
          rw [trunk, List.tail_cons] at in_tail
          exact List.mem_append_left _ in_tail
  have other := p.root_not_mem_tail_tokens token in_tokens
  obtain ⟨component, text⟩ := token
  cases component with
  | none => exact absurd root (by simp)
  | some c => exact other (congrArg some root)

theorem Straight.parent_not_mem_trunkSteps {p : Path} (straight : p.Straight) :
    Component.parent ∉ p.trunkSteps := by
  intro member
  obtain ⟨⟨component, text⟩, in_trunk, parent⟩ := List.mem_map.mp member
  cases component with
  | none => exact absurd parent (by simp)
  | some c =>
      apply straight
      rw [components_eq_trunk, List.mem_filterMap]
      exact ⟨(some c, text), in_trunk, congrArg some parent⟩

end Path

namespace FileTree

variable {t t' : FileTree} {l l' : Location} {p : Path}

/-! ## Steps in a tree without links -/

/-- The location that a step leads to in a tree without links. -/
def stride (t : FileTree) (l : Location) (step : Component) : Except OsError Location :=
  match step, t.lookup? l with
  | .root, _ => .ok []
  | _, none => .error .notFound
  | step, some .directory => .ok (step.advance l)
  | _, some _ => .error .notDirectory

theorem stride_eq_ok_iff {step : Component} :
    t.stride l step = .ok l' ↔
      l' = step.advance l ∧ (step = .root ∨ t.lookup? l = some .directory) := by
  rcases found : t.lookup? l with _ | ⟨_ | _ | _⟩ <;> cases step <;>
    simp [stride, found, Component.advance, eq_comm]

/-- The location that steps lead to in a tree without links. -/
def tread (t : FileTree) (l : Location) (steps : List Component) : Except OsError Location :=
  steps.foldlM t.stride l

theorem tread_append (l : Location) (front back : List Component) :
    t.tread l (front ++ back) = (do t.tread (← t.tread l front) back) :=
  List.foldlM_append

theorem tread_cons_eq_ok_iff {step : Component} {rest : List Component} :
    t.tread l (step :: rest) = .ok l' ↔
      (step = .root ∨ t.lookup? l = some .directory) ∧ t.tread (step.advance l) rest = .ok l' := by
  rw [tread, List.foldlM_cons, bind_eq_ok_iff]
  constructor
  · rintro ⟨k, strode, led⟩
    obtain ⟨rfl, possible⟩ := stride_eq_ok_iff.mp strode
    exact ⟨possible, led⟩
  · rintro ⟨possible, led⟩
    exact ⟨_, stride_eq_ok_iff.mpr ⟨rfl, possible⟩, led⟩

theorem tread_append_eq_ok_iff {front back : List Component} :
    t.tread l (front ++ back) = .ok l' ↔
      ∃ k, t.tread l front = .ok k ∧ t.tread k back = .ok l' := by
  rw [tread_append, bind_eq_ok_iff]

/-- A step of the system in a tree without links, whatever it would do at one. -/
theorem takeStep_eq_stride (free : t.LinkFree) (jump : Location → Path → Except OsError Location)
    (follow : Bool) (l : Location) (step : Component) :
    t.takeStep jump follow l step = t.stride l step := by
  rcases found : t.lookup? l with _ | ⟨_ | _ | _⟩ <;> cases step <;>
    simp only [takeStep, stride, found, Component.advance]
  split
  · rename_i target link
    exact absurd link (free _ target)
  · rfl

theorem walkSteps_eq_tread (free : t.LinkFree) (jump : Location → Path → Except OsError Location)
    (follow : Bool) (l : Location) (steps : List Component) :
    t.walkSteps jump follow l steps = t.tread l steps := by
  induction steps generalizing l with
  | nil => rfl
  | cons step rest induction =>
      rw [walkSteps, takeStep_eq_stride free, tread, List.foldlM_cons]
      cases t.stride l step with
      | error e => rfl
      | ok l' => exact induction l'

theorem locate_eq_tread (free : t.LinkFree) (some_text : p.text ≠ "") :
    t.locate p = t.tread t.here p.steps := by
  rw [locate, linkLimit, locateFrom, if_neg some_text, walkSteps_eq_tread free]

theorem locateName_eq_locate (free : t.LinkFree) (p : Path) : t.locateName p = t.locate p := by
  rw [locateName, locate, linkLimit, locateFrom, locateFrom]
  simp only [walkSteps_eq_tread free]

/-- Steps that lead somewhere lead where they stand for. -/
theorem eq_foldl_of_tread {steps : List Component} (led : t.tread l steps = .ok l') :
    l' = steps.foldl Component.advance l := by
  induction steps generalizing l with
  | nil => exact (Except.ok.inj led).symm
  | cons step rest induction => exact induction (tread_cons_eq_ok_iff.mp led).2

theorem tread_mono (kept : ∀ k, t.lookup? k = some .directory → t'.lookup? k = some .directory)
    {steps : List Component} (led : t.tread l steps = .ok l') : t'.tread l steps = .ok l' := by
  induction steps generalizing l with
  | nil => exact led
  | cons step rest induction =>
      obtain ⟨possible, led⟩ := tread_cons_eq_ok_iff.mp led
      exact tread_cons_eq_ok_iff.mpr ⟨possible.imp_right (kept l), induction led⟩

/-- Names lead down to the location they stand for exactly if its parent is a directory. -/
theorem tread_normal_iff {names : List Name} (some_name : names ≠ []) :
    t.tread l (names.map .normal) = .ok l' ↔
      l' = l ++ names ∧ t.lookup? (l ++ names.dropLast) = some .directory := by
  induction names generalizing l with
  | nil => exact absurd rfl some_name
  | cons name names induction =>
      rw [List.map_cons, tread_cons_eq_ok_iff]
      cases names with
      | nil =>
          have arrived : t.tread (l ++ [name]) [] = .ok l' ↔ l' = l ++ [name] := by
            simp [tread, pure, Except.pure, eq_comm]
          simp [Component.advance, arrived, and_comm]
      | cons next names =>
          rw [induction (List.cons_ne_nil next names), Component.advance, List.append_assoc,
            List.append_assoc, List.dropLast_cons_cons]
          constructor
          · rintro ⟨-, same, parent⟩
            exact ⟨same, parent⟩
          · rintro ⟨same, parent⟩
            refine ⟨Or.inr ?_, same, parent⟩
            exact lookup?_above parent (List.prefix_append _ _) (by simp)

theorem tread_replicate_current {n : Nat} (some_step : n ≠ 0) :
    t.tread l (List.replicate n .current) = .ok l' ↔ l' = l ∧ t.lookup? l = some .directory := by
  induction n with
  | zero => exact absurd rfl some_step
  | succ n induction =>
      rw [List.replicate_succ, tread_cons_eq_ok_iff, Component.advance]
      by_cases last : n = 0
      · simp [last, tread, pure, Except.pure, eq_comm, and_comm]
      · rw [induction last]
        simp

/-! ## Paths -/

theorem find_eq_ok_iff (free : t.LinkFree) {e : Entry} :
    t.find p = .ok (l, e) ↔
      p.text ≠ "" ∧ t.tread t.here p.steps = .ok l ∧ t.lookup? l = some e := by
  by_cases empty : p.text = ""
  · simp [find, locate, linkLimit, locateFrom, empty]
  · rw [find, locate_eq_tread free empty]
    cases t.tread t.here p.steps with
    | error fault => simp
    | ok k =>
        cases found : t.lookup? k with
        | none =>
            simp only [found, reduceCtorEq, Except.ok.injEq, false_iff]
            rintro ⟨-, rfl, found'⟩
            exact absurd (found.symm.trans found') (by simp)
        | some e' =>
            simp only [found, Except.ok.injEq, Prod.mk.injEq, ne_eq, empty, not_false_eq_true,
              true_and]
            constructor
            · rintro ⟨rfl, rfl⟩
              exact ⟨rfl, found⟩
            · rintro ⟨rfl, found'⟩
              exact ⟨rfl, Option.some.inj (found.symm.trans found')⟩

/-- What is found at a path is where the path stands for. -/
theorem eq_land_of_find (free : t.LinkFree) {e : Entry} (found : t.find p = .ok (l, e)) :
    l = p.land t.here := by
  rw [eq_foldl_of_tread ((find_eq_ok_iff free).mp found).2.1, Path.foldl_steps]

theorem find_mono (free : t.LinkFree) (free' : t'.LinkFree) (here : t'.here = t.here)
    (kept : ∀ k e, t.lookup? k = some e → t'.lookup? k = some e) {e : Entry}
    (found : t.find p = .ok (l, e)) : t'.find p = .ok (l, e) := by
  obtain ⟨some_text, led, entry⟩ := (find_eq_ok_iff free).mp found
  rw [find_eq_ok_iff free', here]
  exact ⟨some_text, tread_mono (fun k => kept k .directory) led, kept l e entry⟩

theorem exists_find_eq_error (free : t.LinkFree) (free' : t'.LinkFree) (here : t'.here = t.here)
    {e : Entry} (found : t.find p = .ok (l, e)) (gone : t'.lookup? l = none) :
    ∃ fault, t'.find p = .error fault := by
  cases found' : t'.find p with
  | error fault => exact ⟨fault, rfl⟩
  | ok place =>
      obtain ⟨k, e'⟩ := place
      have there := ((find_eq_ok_iff free').mp found').2.2
      rw [eq_land_of_find free' found', here, ← eq_land_of_find free found, gone] at there
      exact absurd there (by simp)

/-- Whether names can follow a path: it leads to a directory, or is empty and starts in one. -/
def Opens (t : FileTree) (p : Path) (l : Location) : Prop :=
  t.tread t.here p.trunkSteps = .ok l ∧ t.lookup? l = some .directory

theorem Opens.eq_land (opens : t.Opens p l) : l = p.land t.here := by
  rw [eq_foldl_of_tread opens.1, Path.foldl_trunkSteps]

theorem Opens.directory_of_passes (opens : t.Opens p l) {k : Location}
    (passes : p.Passes t.here k) : t.lookup? k = some .directory := by
  obtain ⟨front, some_component, above, rfl⟩ := passes
  rw [Path.components_eq_trunk, List.prefix_filterMap_iff] at above
  obtain ⟨tokens, ⟨rest, whole⟩, rfl⟩ := above
  have some_token : tokens.map (fun token => token.1.getD .current) ≠ [] := by
    rw [ne_eq, List.map_eq_nil_iff]
    rintro rfl
    exact some_component rfl
  have steps : p.trunkSteps = tokens.map (fun token => token.1.getD .current) ++
      rest.map fun token => token.1.getD .current := by
    rw [Path.trunkSteps, ← whole, List.map_append]
  have led := opens.1
  rw [steps, tread_append_eq_ok_iff] at led
  obtain ⟨k, led, further⟩ := led
  have arrived := eq_foldl_of_tread led
  rw [Path.foldl_advance_tokens] at arrived
  rw [← arrived]
  cases rest with
  | nil =>
      obtain rfl := Except.ok.inj further
      exact opens.2
  | cons token rest =>
      rw [List.map_cons, tread_cons_eq_ok_iff] at further
      refine further.1.resolve_left fun root => p.root_not_mem_tail_trunkSteps ?_
      rw [steps, List.tail_append_of_ne_nil some_token, List.map_cons, root]
      exact List.mem_append_right _ List.mem_cons_self

theorem Opens.mono (here : t'.here = t.here)
    (kept : ∀ k, t.lookup? k = some .directory → t'.lookup? k = some .directory)
    (opens : t.Opens p l) : t'.Opens p l := by
  rw [Opens, here]
  exact ⟨tread_mono kept opens.1, kept l opens.2⟩

theorem find_directory_iff_opens (free : t.LinkFree) (some_text : p.text ≠ "") :
    t.find p = .ok (l, .directory) ↔ t.Opens p l := by
  rw [find_eq_ok_iff free, Opens]
  rcases p.steps_eq_trunkSteps_or with ⟨steps, -⟩ | ⟨steps, -⟩
  · rw [steps]
    simp [some_text]
  · rw [steps, tread_append_eq_ok_iff]
    constructor
    · rintro ⟨-, ⟨k, led, stays⟩, found⟩
      obtain ⟨rfl, -⟩ := (tread_replicate_current (n := 1) Nat.one_ne_zero).mp stays
      exact ⟨led, found⟩
    · rintro ⟨led, found⟩
      have stays := (tread_replicate_current (n := 1) Nat.one_ne_zero).mpr ⟨rfl, found⟩
      exact ⟨some_text, ⟨l, led, stays⟩, found⟩

/-- A path that goes on with names leads below where it opens. -/
theorem locate_descend (free : t.LinkFree) (opens : t.Opens p l) {names : List Name}
    (some_name : names ≠ []) :
    t.locate (p.descend names) = t.tread l (names.map .normal) := by
  rw [locate_eq_tread free (p.text_descend_ne_empty some_name), p.steps_descend some_name,
    tread_append, opens.1]
  rfl

/-- What is below where a path opens is found at the path that goes on with its names. -/
theorem find_descend (free : t.LinkFree) (opens : t.Opens p l) {names : List Name}
    (some_name : names ≠ []) {e : Entry} (there : t.lookup? (l ++ names) = some e) :
    t.find (p.descend names) = .ok (l ++ names, e) := by
  have parent := lookup?_dropLast there
  rw [List.dropLast_append_of_ne_nil some_name] at parent
  have led : t.locate (p.descend names) = .ok (l ++ names) := by
    rw [locate_descend free opens some_name]
    exact (tread_normal_iff some_name).mpr ⟨rfl, parent⟩
  rw [find, led]
  simp only [there]

theorem opens_of_locate_descend_singleton (free : t.LinkFree) {name : Name}
    (located : t.locate (p.descend [name]) = .ok l) : t.Opens p (p.land t.here) := by
  have some_name : [name] ≠ [] := List.cons_ne_nil name []
  rw [locate_eq_tread free (p.text_descend_ne_empty some_name), p.steps_descend some_name,
    tread_append_eq_ok_iff] at located
  obtain ⟨k, led, down⟩ := located
  have directory := ((tread_normal_iff some_name).mp down).2
  rw [List.dropLast_singleton, List.append_nil] at directory
  have opens : t.Opens p k := ⟨led, directory⟩
  rwa [← opens.eq_land]

/-! ## Straight paths -/

theorem isPrefix_foldl_advance {steps : List Component} (no_root : Component.root ∉ steps)
    (no_parent : Component.parent ∉ steps) : l <+: steps.foldl Component.advance l := by
  induction steps generalizing l with
  | nil => exact List.prefix_rfl
  | cons step rest induction =>
      rw [List.mem_cons, not_or] at no_root no_parent
      have further := @induction (step.advance l) no_root.2 no_parent.2
      cases step with
      | root => exact absurd rfl no_root.1
      | current => exact further
      | parent => exact absurd rfl no_parent.1
      | normal name => exact (List.prefix_append l [name]).trans further

theorem tread_of_straight {steps : List Component} (no_root : Component.root ∉ steps)
    (no_parent : Component.parent ∉ steps)
    (found : t.lookup? (steps.foldl Component.advance l) = some .directory) :
    t.tread l steps = .ok (steps.foldl Component.advance l) := by
  induction steps generalizing l with
  | nil => rfl
  | cons step rest induction =>
      have start := directory_above found (isPrefix_foldl_advance no_root no_parent)
      rw [List.mem_cons, not_or] at no_root no_parent
      rw [List.foldl_cons] at found ⊢
      exact tread_cons_eq_ok_iff.mpr ⟨Or.inr start, induction no_root.2 no_parent.2 found⟩

/-- A straight path to a directory opens there. -/
theorem opens_of_straight (straight : p.Straight)
    (found : t.lookup? (p.land t.here) = some .directory) : t.Opens p (p.land t.here) := by
  refine ⟨?_, found⟩
  have no_parent := straight.parent_not_mem_trunkSteps
  have no_root := p.root_not_mem_tail_trunkSteps
  rw [← Path.foldl_trunkSteps] at found ⊢
  cases steps : p.trunkSteps with
  | nil => rfl
  | cons step rest =>
      rw [steps] at no_parent no_root found
      rw [List.tail_cons] at no_root
      by_cases rooted : step = .root
      · rw [rooted] at found ⊢
        have rest_no_parent : Component.parent ∉ rest :=
          fun member => no_parent (List.mem_cons_of_mem step member)
        exact tread_cons_eq_ok_iff.mpr ⟨Or.inl rfl, tread_of_straight no_root rest_no_parent found⟩
      · exact tread_of_straight (by simp [Ne.symm rooted, no_root]) no_parent found

end FileTree
end PackageBuild
