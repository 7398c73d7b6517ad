import Mathlib.Data.List.Infix
import PackageBuild.FileTree.Walk
import PackageBuild.Proofs.FileTree.Lookup
import PackageBuild.Proofs.Path.Descent
import PackageBuild.Proofs.Path.Order
/-!
# What a walk meets, and in which order

A walk goes depth first, with siblings by name and every directory before its contents, and leaves
out the location it is told to avoid with all that lies below. So what it meets comes in the
increasing order of paths, component by component: a sibling whose name goes on where that of a
directory ends comes after all that is in the directory.
-/

namespace PackageBuild

/-! ## Comparing ways -/

/-- A common beginning does not count in a comparison. -/
theorem compare_append_left {α : Type} [Ord α] [Std.ReflOrd α] (front l r : List α) :
    compare (front ++ l) (front ++ r) = compare l r := by
  induction front with
  | nil => rfl
  | cons a front induction =>
      rw [List.cons_append, List.cons_append, List.compare_cons_cons, Std.ReflOrd.compare_self,
        Ordering.then, induction]

theorem compare_map_normal (names others : List Name) :
    compare (names.map Component.normal) (others.map Component.normal) = compare names others := by
  have single (a b : Name) : compare (Component.normal a) (Component.normal b) = compare a b := rfl
  induction names generalizing others with
  | nil => cases others <;> rfl
  | cons a names induction =>
      cases others with
      | nil => rfl
      | cons b others =>
          simp only [List.map_cons, List.compare_cons_cons, single, induction]

theorem Path.precedes_descend_iff (p : Path) (way way' : Location) :
    (p.descend way).Precedes (p.descend way') ↔ compare way way' = .lt := by
  rw [Path.precedes_iff, Path.components_descend, Path.components_descend, compare_append_left,
    compare_map_normal]

namespace FileTree

variable {t : FileTree} {start : Path} {top : Location} {guard : Option Location}

/-! ## What is met -/

theorem reaches_iff {top guard k : Location} :
    reaches top (some guard) k = true ↔ ¬(top <+: guard ∧ guard <+: k) := by
  rw [reaches, Bool.not_eq_true', Bool.and_eq_false_iff, ← Bool.not_eq_true, ← Bool.not_eq_true,
    atOrBelow_iff, atOrBelow_iff, not_and_or]

/-- What is met below a directory. -/
theorem mem_metBelow_iff {found : Found} :
    found ∈ t.metBelow start top guard ↔ ∃ way e, found = ⟨start.descend way, way, e⟩ ∧ way ≠ [] ∧
      t.lookup? (top ++ way) = some e ∧ reaches top guard (top ++ way) = true := by
  rw [metBelow, List.mem_map]
  constructor
  · rintro ⟨⟨way, e⟩, member, rfl⟩
    obtain ⟨listed, reached⟩ := List.mem_filter.mp member
    obtain ⟨some_way, there⟩ := mem_entriesBelow_iff.mp listed
    exact ⟨way, e, rfl, some_way, there, reached⟩
  · rintro ⟨way, e, rfl, some_way, there, reached⟩
    have listed := mem_entriesBelow_iff.mpr ⟨some_way, there⟩
    exact ⟨(way, e), List.mem_filter.mpr ⟨listed, reached⟩, rfl⟩

/-- From a directory, a walk meets the files below it. -/
theorem filesMet_of_directory (guard : Option Location)
    (source : t.find start = .ok (top, .directory)) :
    t.filesMet start guard = .ok ((t.metBelow start top guard).filter (·.entry.isFile)) := by
  simp [filesMet, walk, source, metAtStart, Entry.isFile, Except.map]

/-- The files met on a walk from a directory. -/
theorem mem_filesMet_iff (guard : Option Location) (source : t.find start = .ok (top, .directory)) :
    ∃ files, t.filesMet start guard = .ok files ∧ ∀ found, found ∈ files ↔
      ∃ way e, found = ⟨start.descend way, way, e⟩ ∧ way ≠ [] ∧
        t.lookup? (top ++ way) = some e ∧ e.isFile = true ∧
          reaches top guard (top ++ way) = true := by
  refine ⟨_, filesMet_of_directory guard source, fun found => ?_⟩
  rw [List.mem_filter, mem_metBelow_iff]
  constructor
  · rintro ⟨⟨way, e, rfl, some_way, there, reached⟩, file⟩
    exact ⟨way, e, rfl, some_way, there, file, reached⟩
  · rintro ⟨way, e, rfl, some_way, there, file, reached⟩
    exact ⟨⟨way, e, rfl, some_way, there, reached⟩, file⟩

theorem path_of_mem_metAtStart {entry : Entry} {found : Found}
    (member : found ∈ t.metAtStart start top entry guard) :
    found.path = start.descend found.way := by
  rw [metAtStart] at member
  split at member
  · rw [List.mem_singleton.mp member]
    rfl
  · exact absurd member (by simp)

theorem path_of_mem_filesMet {files : List Found} (met : t.filesMet start guard = .ok files)
    {found : Found} (member : found ∈ files) : found.path = start.descend found.way := by
  rw [filesMet, walk] at met
  split at met
  · exact absurd met (by simp [Except.map])
  · obtain rfl := Except.ok.inj met
    rcases List.mem_append.mp (List.mem_filter.mp member).1 with at_start | below
    · exact path_of_mem_metAtStart at_start
    · obtain ⟨⟨way, e⟩, -, rfl⟩ := List.mem_map.mp below
      rfl

/-! ## The order in which it is met -/

theorem pairwise_entriesBelow (t : FileTree) (top : Location) :
    (t.entriesBelow top).Pairwise fun item other => compare item.1 other.1 = .lt := by
  rw [entriesBelow, List.pairwise_map]
  have ordered := t.entries.ordered_keys_toList.filter fun item => below top item.1
  refine ordered.imp_of_mem fun {item other} member member' increasing => ?_
  obtain ⟨k, e⟩ := item
  obtain ⟨k', e'⟩ := other
  obtain ⟨⟨way, rfl⟩, -⟩ := below_iff.mp (List.mem_filter.mp member).2
  obtain ⟨⟨way', rfl⟩, -⟩ := below_iff.mp (List.mem_filter.mp member').2
  simpa only [List.drop_left, compare_append_left] using increasing

theorem pairwise_metBelow (t : FileTree) (start : Path) (top : Location)
    (guard : Option Location) :
    (t.metBelow start top guard).Pairwise fun found other =>
      compare found.way other.way = .lt := by
  rw [metBelow, List.pairwise_map]
  exact (t.pairwise_entriesBelow top).filter _

theorem pairwise_filesMet {files : List Found} (source : t.find start = .ok (top, .directory))
    (met : t.filesMet start guard = .ok files) :
    files.Pairwise fun found other => compare found.way other.way = .lt := by
  obtain rfl := Except.ok.inj (met.symm.trans (filesMet_of_directory guard source))
  exact (t.pairwise_metBelow start top guard).filter _

/-! ## Going depth first -/

/-- What is met below a directory, down to some depth, by going into every directory as soon as it
is met. -/
def descent (t : FileTree) (start : Path) (top : Location) (avoid : Option Location) :
    Nat → Location → List Found
  | 0, _ => []
  | depth + 1, way =>
    (t.childrenMet avoid (top ++ way)).flatMap fun child =>
      ⟨start.descend (way ++ [child.1]), way ++ [child.1], child.2⟩ ::
        descent t start top avoid depth (way ++ [child.1])

theorem child?_eq_some_iff {item : Location × Entry} {child : Name × Entry} :
    child? item = some child ↔ item = ([child.1], child.2) := by
  constructor
  · intro single
    obtain ⟨_ | ⟨name, _ | ⟨next, way⟩⟩, e⟩ := item
    · exact absurd single (by simp [child?])
    · obtain rfl := Option.some.inj single
      rfl
    · exact absurd single (by simp [child?])
  · rintro rfl
    rfl

theorem mem_children_iff {l : Location} {child : Name × Entry} :
    child ∈ t.children l ↔ t.lookup? (l ++ [child.1]) = some child.2 := by
  simp [children, List.mem_filterMap, child?_eq_some_iff, mem_entriesBelow_iff]

theorem pairwise_children (t : FileTree) (l : Location) :
    (t.children l).Pairwise fun child other => compare child.1 other.1 = .lt := by
  rw [children, List.pairwise_filterMap]
  refine (t.pairwise_entriesBelow l).imp fun increasing child single child' single' => ?_
  rw [child?_eq_some_iff.mp single, child?_eq_some_iff.mp single',
    List.compare_cons_cons] at increasing
  simpa using increasing

theorem mem_childrenMet_iff {l : Location} {child : Name × Entry} :
    child ∈ t.childrenMet guard l ↔
      t.lookup? (l ++ [child.1]) = some child.2 ∧ guard ≠ some (l ++ [child.1]) := by
  rw [childrenMet, List.mem_filter, mem_children_iff, decide_eq_true_eq]

theorem pairwise_childrenMet (t : FileTree) (guard : Option Location) (l : Location) :
    (t.childrenMet guard l).Pairwise fun child other => compare child.1 other.1 = .lt :=
  (t.pairwise_children l).filter _

theorem childrenMet_congr {t' : FileTree} {l : Location}
    (same : ∀ name, guard ≠ some (l ++ [name]) →
      t'.lookup? (l ++ [name]) = t.lookup? (l ++ [name])) :
    t'.childrenMet guard l = t.childrenMet guard l := by
  refine eq_of_pairwise_lt Prod.fst (t'.pairwise_childrenMet guard l)
    (t.pairwise_childrenMet guard l) fun child => ?_
  rw [mem_childrenMet_iff, mem_childrenMet_iff]
  exact and_congr_left fun entered => by rw [same child.1 entered]

/-- One step of going depth first: to a child and, from there, on. -/
theorem mem_descent_succ_iff {depth : Nat} {way : Location} {found : Found} :
    found ∈ t.descent start top guard (depth + 1) way ↔ ∃ name e,
      t.lookup? (top ++ (way ++ [name])) = some e ∧ guard ≠ some (top ++ (way ++ [name])) ∧
        (found = ⟨start.descend (way ++ [name]), way ++ [name], e⟩ ∨
          found ∈ t.descent start top guard depth (way ++ [name])) := by
  simp only [descent, List.mem_flatMap, mem_childrenMet_iff, List.mem_cons, Prod.exists,
    List.append_assoc, and_assoc]

/-- Going depth first meets what lies below, down to the depth, unless the way there enters the
location to avoid. -/
theorem mem_descent_iff {depth : Nat} {way : Location} {found : Found} :
    found ∈ t.descent start top guard depth way ↔ ∃ rest e, rest ≠ [] ∧ rest.length ≤ depth ∧
      found = ⟨start.descend (way ++ rest), way ++ rest, e⟩ ∧
      t.lookup? (top ++ (way ++ rest)) = some e ∧
      ∀ front, front ≠ [] → front <+: rest → guard ≠ some (top ++ (way ++ front)) := by
  induction depth generalizing way with
  | zero =>
      constructor
      · intro member
        exact absurd member (by simp [descent])
      · rintro ⟨rest, e, some_name, short, -⟩
        exact absurd (List.length_eq_zero_iff.mp (Nat.le_zero.mp short)) some_name
  | succ depth induction =>
      simp only [mem_descent_succ_iff, induction]
      constructor
      · rintro ⟨name, e, child, entered, rfl | ⟨rest, e', -, short, rfl, there, clear⟩⟩
        · refine ⟨[name], e, by simp, by simp, rfl, child, fun front some_name above => ?_⟩
          obtain ⟨first, front, rfl⟩ := List.exists_cons_of_ne_nil some_name
          obtain ⟨rfl, nothing⟩ := List.cons_prefix_cons.mp above
          rwa [List.prefix_nil.mp nothing]
        · refine ⟨name :: rest, e', by simp, by simpa using short, by simp, by simpa using there,
            fun front some_name above => ?_⟩
          obtain ⟨first, front, rfl⟩ := List.exists_cons_of_ne_nil some_name
          obtain ⟨rfl, further⟩ := List.cons_prefix_cons.mp above
          by_cases last : front = []
          · rwa [last]
          · simpa using clear front last further
      · rintro ⟨rest, e, some_name, short, rfl, there, clear⟩
        obtain ⟨name, rest, rfl⟩ := List.exists_cons_of_ne_nil some_name
        have entered := clear [name] (List.cons_ne_nil name []) (by simp)
        by_cases last : rest = []
        · subst last
          exact ⟨name, e, there, entered, Or.inl rfl⟩
        · have parent : t.lookup? (top ++ (way ++ [name])) = some .directory :=
            lookup?_above there (by simp) (by simpa using last)
          refine ⟨name, .directory, parent, entered, Or.inr ⟨rest, e, last, by simpa using short,
            by simp, by simpa using there, fun front _ above => ?_⟩⟩
          simpa using clear (name :: front) (List.cons_ne_nil name front)
            (List.cons_prefix_cons.mpr ⟨rfl, above⟩)

/-- Going depth first meets everything in increasing order: a directory before what lies in it, and
that before the siblings that follow. -/
theorem pairwise_descent (depth : Nat) (way : Location) :
    (t.descent start top guard depth way).Pairwise fun found other =>
      compare found.way other.way = .lt := by
  induction depth generalizing way with
  | zero => exact List.Pairwise.nil
  | succ depth induction =>
      rw [descent, List.pairwise_flatMap]
      constructor
      · intro child _
        refine List.pairwise_cons.mpr ⟨fun found deeper => ?_, induction _⟩
        obtain ⟨rest, e, some_name, -, rfl, -⟩ := mem_descent_iff.mp deeper
        obtain ⟨next, rest, rfl⟩ := List.exists_cons_of_ne_nil some_name
        have longer := compare_append_left (way ++ [child.1]) [] (next :: rest)
        rwa [List.append_nil, List.compare_nil_cons] at longer
      · have starts {found : Found} {child : Name × Entry}
            (member : found ∈ (⟨start.descend (way ++ [child.1]), way ++ [child.1], child.2⟩ ::
              t.descent start top guard depth (way ++ [child.1]) : List Found)) :
            ∃ rest, found.way = way ++ child.1 :: rest := by
          rcases List.mem_cons.mp member with rfl | deeper
          · exact ⟨[], rfl⟩
          · obtain ⟨rest, e, -, -, rfl, -⟩ := mem_descent_iff.mp deeper
            exact ⟨rest, by simp⟩
        refine (t.pairwise_childrenMet guard (top ++ way)).imp
          fun {child other} increasing found member found' member' => ?_
        obtain ⟨rest, way_eq⟩ := starts member
        obtain ⟨rest', way_eq'⟩ := starts member'
        rw [way_eq, way_eq', compare_append_left, List.compare_cons_cons, increasing]
        rfl

theorem reaches_append_iff {way : Location} :
    reaches top guard (top ++ way) = true ↔
      ∀ front, front <+: way → guard ≠ some (top ++ front) := by
  cases guard with
  | none => simp [reaches]
  | some l =>
      rw [reaches_iff]
      constructor
      · rintro clear front above same
        obtain rfl := Option.some.inj same
        exact clear ⟨List.prefix_append top front, (List.prefix_append_right_inj top).mpr above⟩
      · rintro clear ⟨⟨front, rfl⟩, above⟩
        exact clear front ((List.prefix_append_right_inj top).mp above) rfl

/-- No way is longer than there are entries: every directory on it is one. -/
theorem length_le_size {l : Location} {e : Entry} (there : t.lookup? l = some e) :
    l.length ≤ t.entries.size := by
  have listed : (List.range l.length).map (fun i => l.take (i + 1)) ⊆ t.entries.keys := by
    intro k member
    obtain ⟨i, short, rfl⟩ := List.mem_map.mp member
    rw [List.mem_range] at short
    have some_name : l.take (i + 1) ≠ [] := by
      rw [← List.length_pos_iff, List.length_take]
      omega
    rw [Std.ExtTreeMap.mem_keys, Std.ExtTreeMap.mem_iff_isSome_getElem?,
      ← lookup?_of_ne_nil some_name]
    by_cases whole : l.take (i + 1) = l
    · rw [whole, there]
      rfl
    · rw [lookup?_above there (List.take_prefix _ _) whole]
      rfl
  have distinct : ((List.range l.length).map fun i => l.take (i + 1)).Nodup := by
    refine List.pairwise_map.mpr (List.nodup_range.imp_of_mem fun short short' differ same => ?_)
    rw [List.mem_range] at short short'
    have lengths := congrArg List.length same
    rw [List.length_take, List.length_take] at lengths
    omega
  simpa using (List.subperm_of_subset distinct listed).length_le

/-- A walk below a directory goes depth first, and stays out of the location to avoid: to go as deep
as there are entries is enough. -/
theorem metBelow_eq_descent {more : Nat} (enough : t.entries.size ≤ more) :
    t.metBelow start top guard =
      if guard = some top then [] else t.descent start top guard more [] := by
  by_cases inside : guard = some top
  · rw [if_pos inside, List.eq_nil_iff_forall_not_mem]
    intro found member
    obtain ⟨way, e, -, -, -, reached⟩ := mem_metBelow_iff.mp member
    exact reaches_append_iff.mp reached [] List.nil_prefix (by rw [List.append_nil, inside])
  · rw [if_neg inside]
    refine eq_of_pairwise_lt Found.way (t.pairwise_metBelow start top guard)
      (pairwise_descent more []) fun found => ?_
    rw [mem_metBelow_iff, mem_descent_iff]
    constructor
    · rintro ⟨way, e, rfl, some_way, there, reached⟩
      have short := length_le_size there
      rw [List.length_append] at short
      exact ⟨way, e, some_way, by omega, rfl, there,
        fun front _ => reaches_append_iff.mp reached front⟩
    · rintro ⟨way, e, some_way, -, rfl, there, clear⟩
      refine ⟨way, e, rfl, some_way, there, reaches_append_iff.mpr fun front above => ?_⟩
      by_cases some_name : front = []
      · rw [some_name, List.append_nil]
        exact inside
      · exact clear front some_name above

end FileTree
end PackageBuild
