import PackageBuild.Proofs.FileTree.Confinement
import PackageBuild.Proofs.Packager.Steps
import PackageBuild.Proofs.Packager.Targets
/-!
# Copying while walking

A rule copies files while it walks through its source, and lists a directory when it gets there. As
long as no copy adds to a directory that is still to be entered, it copies what a walk through the
files as they were at the start meets, in the same order. In any case no copy gets farther away from
the source than what it is a copy of, so the walk comes to an end.
-/

namespace PackageBuild

open FileTree

theorem foldlM_flatMap {m : Type → Type} [Monad m] [LawfulMonad m] {α β γ : Type}
    (f : α → List β) (g : γ → β → m γ) (items : List α) (start : γ) :
    (items.flatMap f).foldlM g start = items.foldlM (fun c item => (f item).foldlM g c) start := by
  induction items generalizing start with
  | nil => rfl
  | cons item items induction =>
      rw [List.flatMap_cons, List.foldlM_append, List.foldlM_cons]
      exact bind_congr induction

namespace Action

variable {rule : CopyRule} {dir : Name} {found : Found} {written : Location → Prop}

/-- A copy for a rule changes what is in its directory, no deeper there than what was met below the
source, and makes what the path of the package passes. -/
theorem confines_copyFile_of_takes (fills : rule.Fills dir)
    (met : found.path = rule.src.descend found.way) (taken : rule.takes found = true)
    {packageDir : Path} {here : Location}
    (inside : ∀ names, (found.way ≠ [] → names.length ≤ found.way.length) →
      written (packageDir.land here ++ dir :: names)) :
    Keeps (Confines here written (packageDir.Passes here))
      (copyFile found.path (packageDir.join (rule.target found))) := by
  obtain ⟨names, short, components⟩ := CopyRule.exists_components_target fills met taken packageDir
  apply confines_copyFile
  · rw [Path.land_congr components, Path.land_descend]
    exact inside names short
  · intro q shorter k passes
    rw [components] at shorter
    rcases passes.of_descend shorter with before | ⟨front, some_name, above, rfl⟩
    · exact Or.inr before
    · obtain ⟨first, front, rfl⟩ := List.exists_cons_of_ne_nil some_name
      obtain ⟨rfl, further⟩ := List.cons_prefix_cons.mp above
      exact Or.inl (inside front fun some_way => further.length_le.trans (short some_way))

end Action

namespace Packager

open PackageBuild.Action

variable {rule : CopyRule} {dir : Name} {packageDir : Path} {guard : Option Location}
  {top : Location} {t : FileTree} {holds : FileTree → Prop} {world world' : World}

/-! ## Copying what was there at the start -/

theorem reaches_child {way : Location} {name : Name}
    (reached : reaches top guard (top ++ way) = true)
    (entered : guard ≠ some (top ++ (way ++ [name]))) :
    reaches top guard (top ++ (way ++ [name])) = true := by
  rw [reaches_append_iff] at reached ⊢
  intro front above
  rcases List.prefix_concat_iff.mp above with rfl | above
  · exact entered
  · exact reached front above

theorem outcome_copyBelow_next (depth : Nat) (way : Location) (copies : Copies) :
    (copyBelow rule packageDir guard top (depth + 1) way copies).outcome world =
      ((world.tree.childrenMet guard (top ++ way)).foldlM (fun copies (child : Name × Entry) => do
        let way := way ++ [child.1]
        let copies ← copyMet rule packageDir copies ⟨rule.src.descend way, way, child.2⟩
        copyBelow rule packageDir guard top depth way copies) copies).outcome world := by
  rw [copyBelow, outcome_bind_ok (outcome_look _)]

/-- Copying on the way copies what the walk through a tree meets, when the directories that it
enters have the same children after every copy. -/
theorem outcome_copyBelow
    (listed : ∀ t', holds t' → ∀ way, reaches top guard (top ++ way) = true →
      t'.childrenMet guard (top ++ way) = t.childrenMet guard (top ++ way))
    {depth : Nat} {way : Location} (reached : reaches top guard (top ++ way) = true)
    (kept : ∀ found ∈ t.descent rule.src top guard depth way, ∀ copies,
      Keeps (fun t t' => holds t → holds t') (copyMet rule packageDir copies found))
    (start : holds world.tree) (copies : Copies) :
    (copyBelow rule packageDir guard top depth way copies).outcome world =
      ((t.descent rule.src top guard depth way).foldlM (copyMet rule packageDir)
        copies).outcome world := by
  induction depth generalizing way world copies with
  | zero => rfl
  | succ depth induction =>
      rw [outcome_copyBelow_next, listed _ start way reached]
      rw [descent] at kept ⊢
      rw [foldlM_flatMap]
      refine outcome_foldlM_congr ?_ ?_ start copies
      · intro copies child member world start
        have each (found : Found) (below : found ∈ _) :=
          kept found (List.mem_flatMap.mpr ⟨child, member, below⟩)
        rw [List.foldlM_cons]
        apply outcome_bind_congr rfl
        intro copies' world' outcome
        have still := each _ List.mem_cons_self copies world start
        rw [outcome] at still
        have entered := (mem_childrenMet_iff.mp member).2
        rw [List.append_assoc] at entered
        exact induction (reaches_child reached entered)
          (fun found below => each found (List.mem_cons_of_mem _ below)) still copies'
      · intro copies child member
        exact closed_preserves.of_foldlM _ (fun copies found below =>
          kept found (List.mem_flatMap.mpr ⟨child, member, below⟩) copies) copies

/-- A rule whose source is a directory copies what the walk through it meets at the start. -/
theorem outcome_copyRule_eq
    (source : world.tree.find rule.src = .ok (top, .directory))
    (listed : ∀ t', holds t' → ∀ way, reaches top guard (top ++ way) = true →
      t'.childrenMet guard (top ++ way) = world.tree.childrenMet guard (top ++ way))
    (kept : ∀ found ∈ world.tree.metBelow rule.src top guard, ∀ copies,
      Keeps (fun t t' => holds t → holds t') (copyMet rule packageDir copies found))
    (start : holds world.tree) {files : List Found}
    (met : world.tree.filesMet rule.src guard = .ok files) :
    (copyRule rule packageDir guard).outcome world =
      ((files.filter rule.takes).foldlM (copyOne rule packageDir) [] >>=
        fun copies => pure (copies.map (·.1))).outcome world := by
  have alone : world.tree.metAtStart rule.src top .directory guard = [] := by
    simp [metAtStart, Entry.isFile]
  have below : world.tree.metBelow rule.src top guard = if guard = some top then [] else
      world.tree.descent rule.src top guard world.tree.entries.size [] :=
    metBelow_eq_descent (Nat.le_refl _)
  obtain rfl := Except.ok.inj (met.symm.trans (filesMet_of_directory guard source))
  rw [copyRule, outcome_bind_ok (outcome_look _), id, source]
  dsimp only
  rw [alone, List.foldlM_nil, pure_bind]
  apply outcome_bind_congr
  · have filtered : List.foldlM (copyOne rule packageDir) []
        ((((world.tree.metBelow rule.src top guard).filter (·.entry.isFile)).filter rule.takes)) =
        (world.tree.metBelow rule.src top guard).foldlM (copyMet rule packageDir) [] := by
      rw [List.filter_filter, List.foldlM_filter]
      simp only [Bool.and_comm (rule.takes _)]
      rfl
    rw [filtered, below]
    rw [below] at kept
    split
    · rfl
    · rename_i outside
      rw [if_neg outside] at kept
      refine outcome_copyBelow listed (reaches_append_iff.mpr fun front above => ?_) kept start []
      rwa [List.prefix_nil.mp above, List.append_nil]
  · exact fun _ _ _ => rfl

/-- A rule copies what was there at the start when the path of the package passes directories only
and the walk does not enter the directory of the rule. -/
theorem outcome_copyRule_eq_of_apart (fills : rule.Fills dir) (free : world.tree.LinkFree)
    (source : world.tree.find rule.src = .ok (top, .directory))
    (paved : ∀ k, packageDir.Passes world.tree.here k → world.tree.lookup? k = some .directory)
    (apart : ∀ way, reaches top guard (top ++ way) = true →
      ¬packageDir.land world.tree.here ++ [dir] <+: top ++ way) {files : List Found}
    (met : world.tree.filesMet rule.src guard = .ok files) :
    (copyRule rule packageDir guard).outcome world =
      ((files.filter rule.takes).foldlM (copyOne rule packageDir) [] >>=
        fun copies => pure (copies.map (·.1))).outcome world := by
  have unchanged {t : FileTree}
      (confined : Confined (packageDir.land world.tree.here ++ [dir] <+: ·)
        (packageDir.Passes world.tree.here) world.tree t) {k : Location}
      (outside : ¬packageDir.land world.tree.here ++ [dir] <+: k) :
      t.lookup? k = world.tree.lookup? k := by
    rcases confined.elsewhere k outside with same | ⟨absent, -, passes⟩
    · exact same
    · exact absurd (absent.symm.trans (paved k passes)) (by simp)
  have start : Confined (packageDir.land world.tree.here ++ [dir] <+: ·)
      (packageDir.Passes world.tree.here) world.tree world.tree := .refl world.tree
  refine outcome_copyRule_eq source (fun t confined way reached => ?_) (fun found member => ?_)
    start met
  · refine childrenMet_congr fun name entered => unchanged confined ?_
    rw [List.append_assoc] at entered ⊢
    exact apart _ (reaches_child reached entered)
  · obtain ⟨way, e, rfl, -⟩ := mem_metBelow_iff.mp member
    refine closed_preserves.of_copyMet fun taken world' confined => ?_
    exact confined.trans (confines_copyFile_of_takes fills rfl taken
      (fun names _ => ⟨names, by simp⟩) world' (confined.free free) confined.here)

/-! ## How deep a walk goes -/

/-- Whether nothing that a walk which stays out of a location gets to is more than some steps away,
in a tree without links. -/
structure Shallow (here l top : Location) (n : Nat) (t : FileTree) : Prop where
  /-- Relative paths start there. -/
  here : t.here = here
  /-- There are no links. -/
  free : t.LinkFree
  /-- The walk does not get farther. -/
  short : ∀ way, reaches top (some l) (top ++ way) = true → t.lookup? (top ++ way) ≠ none →
    way.length ≤ n

section Depth

variable {here l : Location} {n : Nat}

theorem shallow_size (l : Location) (free : t.LinkFree) :
    Shallow t.here l top t.entries.size t where
  here := rfl
  free := free
  short way _ there := by
    obtain ⟨e, found⟩ := Option.ne_none_iff_exists'.mp there
    have short := length_le_size found
    rw [List.length_append] at short
    omega

theorem Shallow.child (shallow : Shallow here l top n t) {way : Location}
    (reached : reaches top (some l) (top ++ way) = true) {child : Name × Entry}
    (member : child ∈ t.childrenMet (some l) (top ++ way)) :
    reaches top (some l) (top ++ (way ++ [child.1])) = true ∧ (way ++ [child.1]).length ≤ n := by
  obtain ⟨there, entered⟩ := mem_childrenMet_iff.mp member
  rw [List.append_assoc] at there entered
  have further := reaches_child reached entered
  exact ⟨further, shallow.short _ further (by simp [there])⟩

variable (fills : rule.Fills dir) (lands : packageDir.land here = l)
  (near : ∀ way, packageDir.Passes here (top ++ way) → way.length ≤ n)
include fills lands near

/-- A copy of what is met at most so many steps away lies no farther away. -/
theorem keeps_shallow_copyMet {way : Location} (some_way : way ≠ []) (short : way.length ≤ n)
    (e : Entry) (copies : Copies) :
    Keeps (fun t t' => Shallow here l top n t → Shallow here l top n t')
      (copyMet rule packageDir copies ⟨rule.src.descend way, way, e⟩) := by
  refine closed_preserves.of_copyMet (fun taken world shallow => ?_) copies
  have confined : Confined (fun k => ∃ names, names.length ≤ n ∧ k = l ++ dir :: names)
      (packageDir.Passes here) world.tree _ :=
    confines_copyFile_of_takes fills rfl taken
      (fun names bound => ⟨names, (bound some_way).trans short, by rw [lands]⟩) world shallow.free
      shallow.here
  refine ⟨confined.here.trans shallow.here, confined.free shallow.free, ?_⟩
  intro way' reached there
  by_cases written : ∃ names : List Name, names.length ≤ n ∧ top ++ way' = l ++ dir :: names
  · obtain ⟨names, bound, place⟩ := written
    have below : l ++ [dir] <+: top ++ way' := ⟨names, by simp [place]⟩
    have longer := (CopyRule.prefix_of_reaches reached below).length_le
    have lengths := congrArg List.length place
    simp only [List.length_append, List.length_cons, List.length_nil] at longer lengths
    omega
  · rcases confined.elsewhere _ written with same | ⟨-, -, passes⟩
    · rw [same] at there
      exact shallow.short way' reached there
    · exact near way' passes

theorem keeps_shallow_copyBelow (depth : Nat) {way : Location}
    (reached : reaches top (some l) (top ++ way) = true) (copies : Copies) :
    Keeps (fun t t' => Shallow here l top n t → Shallow here l top n t')
      (copyBelow rule packageDir (some l) top depth way copies) := by
  induction depth generalizing way copies with
  | zero => exact fun world => id
  | succ depth induction =>
      intro world shallow
      rw [outcome_copyBelow_next]
      refine closed_preserves.of_foldlM _ (fun copies child member => ?_) copies world shallow
      obtain ⟨further, short⟩ := shallow.child reached member
      exact closed_preserves.of_bind
        (keeps_shallow_copyMet fills lands near (by simp) short child.2 copies)
        fun copies' _ => induction further copies'

theorem outcome_copyBelow_succ {depth : Nat} {way : Location}
    (reached : reaches top (some l) (top ++ way) = true) (enough : n ≤ way.length + depth)
    (shallow : Shallow here l top n world.tree) (copies : Copies) :
    (copyBelow rule packageDir (some l) top (depth + 1) way copies).outcome world =
      (copyBelow rule packageDir (some l) top depth way copies).outcome world := by
  induction depth generalizing way world copies with
  | zero =>
      have childless : world.tree.childrenMet (some l) (top ++ way) = [] := by
        rw [List.eq_nil_iff_forall_not_mem]
        intro child member
        have short := (shallow.child reached member).2
        rw [List.length_append, List.length_singleton] at short
        omega
      rw [outcome_copyBelow_next, childless]
      rfl
  | succ depth induction =>
      rw [outcome_copyBelow_next, outcome_copyBelow_next]
      refine outcome_foldlM_congr (fun copies child member world' shallow' => ?_)
        (fun copies child member => ?_) shallow copies
      · obtain ⟨further, short⟩ := shallow.child reached member
        apply outcome_bind_congr rfl
        intro copies' world'' outcome
        have still := keeps_shallow_copyMet fills lands near (by simp) short child.2 copies world'
          shallow'
        rw [outcome] at still
        refine induction further ?_ still copies'
        rw [List.length_append, List.length_singleton]
        omega
      · obtain ⟨further, short⟩ := shallow.child reached member
        exact closed_preserves.of_bind
          (keeps_shallow_copyMet fills lands near (by simp) short child.2 copies)
          fun copies' _ => keeps_shallow_copyBelow fills lands near depth further copies'

end Depth

/-- To go deeper than there are entries at the start changes nothing. -/
theorem outcome_copyBelow_of_le (fills : rule.Fills dir) (free : world.tree.LinkFree)
    (paved : ∀ k, packageDir.Passes world.tree.here k → world.tree.lookup? k = some .directory)
    (outside : packageDir.land world.tree.here ≠ top) {more : Nat}
    (enough : world.tree.entries.size ≤ more) (copies : Copies) :
    (copyBelow rule packageDir (some (packageDir.land world.tree.here)) top more []
        copies).outcome world =
      (copyBelow rule packageDir (some (packageDir.land world.tree.here)) top
        world.tree.entries.size [] copies).outcome world := by
  have near (way : Location) (passes : packageDir.Passes world.tree.here (top ++ way)) :
      way.length ≤ world.tree.entries.size := by
    have short := length_le_size (paved _ passes)
    rw [List.length_append] at short
    omega
  have reached : reaches top (some (packageDir.land world.tree.here)) (top ++ []) = true := by
    rw [reaches_append_iff]
    rintro front above same
    rw [List.prefix_nil.mp above, List.append_nil] at same
    exact outside (Option.some.inj same)
  induction more, enough using Nat.le_induction with
  | base => rfl
  | succ more enough induction =>
      rw [← induction]
      refine outcome_copyBelow_succ fills rfl near reached ?_ (shallow_size _ free) copies
      simpa using enough

/-! ## Copying that succeeds -/

/-- Whether steps that succeed have copied one file after the other of those that a rule takes. -/
def CopiesTaken (rule : CopyRule) (packageDir : Path) (act : Copies → Action Copies) : Prop :=
  ∀ ⦃copies copies' : Copies⦄ ⦃world world' : World⦄,
    (act copies).outcome world = (.ok copies', world') → ∃ met : List Found,
      (∀ found ∈ met, found.path = rule.src.descend found.way ∧ rule.takes found = true) ∧
      (met.foldlM (copyOne rule packageDir) copies).outcome world = (.ok copies', world')

theorem copiesTaken_pure : CopiesTaken rule packageDir pure := by
  intro copies copies' world world' done
  exact ⟨[], by simp, done⟩

theorem CopiesTaken.bind {act act' : Copies → Action Copies}
    (first : CopiesTaken rule packageDir act) (second : CopiesTaken rule packageDir act') :
    CopiesTaken rule packageDir fun copies => act copies >>= act' := by
  intro copies copies' world world' done
  obtain ⟨noted, middle, earlier, later⟩ := outcome_bind_eq_ok_iff.mp done
  obtain ⟨met, taken, copied⟩ := first earlier
  obtain ⟨met', taken', copied'⟩ := second later
  refine ⟨met ++ met', fun found member => ?_, ?_⟩
  · exact (List.mem_append.mp member).elim (taken found) (taken' found)
  · rw [List.foldlM_append, outcome_bind_ok copied, copied']

theorem copiesTaken_foldlM {α : Type} {act : Copies → α → Action Copies} {items : List α}
    (each : ∀ a ∈ items, CopiesTaken rule packageDir fun copies => act copies a) :
    CopiesTaken rule packageDir (items.foldlM act) := by
  induction items with
  | nil => exact copiesTaken_pure
  | cons item items induction =>
      exact (each item List.mem_cons_self).bind
        (induction fun a member => each a (List.mem_cons_of_mem item member))

theorem copiesTaken_copyMet {found : Found} (met : found.path = rule.src.descend found.way) :
    CopiesTaken rule packageDir fun copies => copyMet rule packageDir copies found := by
  intro copies copies' world world' done
  dsimp only at done
  rw [copyMet] at done
  split at done
  · rename_i taken
    refine ⟨[found], ?_, ?_⟩
    · rw [List.forall_mem_singleton]
      exact ⟨met, (Bool.and_eq_true_iff.mp taken).2⟩
    · rw [List.foldlM_cons]
      simpa only [List.foldlM_nil, bind_pure] using done
  · exact copiesTaken_pure done

theorem copiesTaken_copyBelow (depth : Nat) (way : Location) :
    CopiesTaken rule packageDir (copyBelow rule packageDir guard top depth way) := by
  induction depth generalizing way with
  | zero => exact copiesTaken_pure
  | succ depth induction =>
      intro copies copies' world world' done
      rw [copyBelow, outcome_bind_ok (outcome_look _)] at done
      exact copiesTaken_foldlM (fun child _ =>
        (copiesTaken_copyMet rfl).bind (induction (way ++ [child.1]))) done

/-- Copying for a rule that succeeds has found the source and copied one file after the other of
those that the rule takes. -/
theorem copyRule_eq_ok {paths : List Path}
    (copied : (copyRule rule packageDir guard).outcome world = (.ok paths, world')) :
    ∃ (place : Location × Entry) (met : List Found) (copies : Copies),
      world.tree.find rule.src = .ok place ∧
      (∀ found ∈ met, found.path = rule.src.descend found.way ∧ rule.takes found = true) ∧
      (met.foldlM (copyOne rule packageDir) []).outcome world = (.ok copies, world') ∧
      paths = copies.map (·.1) := by
  rw [copyRule, outcome_bind_ok (outcome_look _), id] at copied
  dsimp only at copied
  split at copied
  · exact absurd (Prod.mk.inj copied).1 (by simp)
  · rename_i top entry source
    obtain ⟨noted, middle, first, rest⟩ := outcome_bind_eq_ok_iff.mp copied
    obtain ⟨copies, last, below, listed⟩ := outcome_bind_eq_ok_iff.mp rest
    simp only [outcome_pure, Prod.mk.injEq, Except.ok.injEq] at listed
    obtain ⟨rfl, rfl⟩ := listed
    have alone : CopiesTaken rule packageDir
        ((world.tree.metAtStart rule.src top entry guard).foldlM (copyMet rule packageDir)) :=
      copiesTaken_foldlM fun found member => copiesTaken_copyMet (path_of_mem_metAtStart member)
    obtain ⟨met, taken, copied⟩ := alone.bind (copiesTaken_copyBelow _ [])
      (outcome_bind_eq_ok_iff.mpr ⟨noted, middle, first, below⟩)
    exact ⟨_, met, copies, source, taken, copied, rfl⟩

end Packager
end PackageBuild
