import PackageBuild.Proofs.FileTree.Growth
/-!
# Making directories in trees without links

Where there are no links, new directories are on the way to where the path stands for. Below a
directory, making one succeeds exactly if no file is in the way.
-/

namespace PackageBuild
namespace FileTree

variable {t t' : FileTree} {l : Location} {p : Path}

/-! ## What is made -/

/-- What making a directory with its parents leaves in a tree without links, whether it succeeds or
not. -/
structure Made (t : FileTree) (p : Path) (outcome : Changed) : Prop where
  /-- What was there stays. -/
  grows : Grows t outcome.2
  /-- New directories are on the way to where the path stands for. -/
  on_way : ∀ k, outcome.2.lookup? k = some .directory → t.lookup? k = some .directory ∨
    ∃ front, front ≠ [] ∧ front <+: p.components ∧ k = front.foldl Component.advance t.here
  /-- After a success there is a directory. -/
  found : outcome.1 = .ok () → p.components ≠ [] →
    outcome.2.find p = .ok (p.land t.here, .directory)

/-- In a tree without links the paths on the way lead where their components stand for. -/
theorem Paved.made {outcome : Changed} (paved : Paved t p outcome) (free : t.LinkFree) :
    Made t p outcome where
  grows := paved.grows
  on_way k directory := by
    rcases paved.on_way k directory with before | ⟨q, on_way, found⟩
    · exact Or.inl before
    · have free' := paved.grows.linkFree free
      refine Or.inr ⟨q.components, ?_, on_way.components, ?_⟩
      · intro none_stands
        apply ((find_eq_ok_iff free').mp found).1
        rw [Path.eq_empty_of_components none_stands]
      · rw [eq_land_of_find free' found, Path.land, paved.grows.here]
  found success some_component := by
    obtain ⟨l, found⟩ := paved.found success some_component
    rw [found, eq_land_of_find (paved.grows.linkFree free) found, paved.grows.here]

/-- Making a directory with its missing parents. -/
theorem makeDirectories_made (free : t.LinkFree) (p : Path) : Made t p (t.makeDirectories p) :=
  (makeDirectories_paved p).made free

theorem makeDirectories_of_find (free : t.LinkFree) (found : t.find p = .ok (l, .directory)) :
    t.makeDirectories p = (.ok (), t) := by
  obtain ⟨some_text, led, directory⟩ := (find_eq_ok_iff free).mp found
  obtain ⟨n, steps⟩ := steps_withoutEndSlash p
  rw [steps, tread_append_eq_ok_iff] at led
  obtain ⟨k, led, stays⟩ := led
  obtain rfl : l = k := by
    by_cases last : n = 0
    · rw [last] at stays
      exact (Except.ok.inj stays).symm
    · exact ((tread_replicate_current last).mp stays).1
  have refused : t.makeDirectory p = .error .alreadyExists := by
    rw [makeDirectory, locateName_eq_locate free,
      locate_eq_tread free (text_withoutEndSlash_ne_empty some_text), led]
    simp only [directory]
  rw [makeDirectories, makeParents, refused]
  split
  · rfl
  · simp only [isDir_iff.mpr ⟨l, found⟩, if_true]

theorem makeDirectories_of_opens (free : t.LinkFree) (opens : t.Opens p l) :
    t.makeDirectories p = (.ok (), t) := by
  by_cases empty : p.text = ""
  · obtain rfl : p = ⟨""⟩ := by rw [← empty]
    rfl
  · exact makeDirectories_of_find free ((find_directory_iff_opens free empty).mpr opens)

theorem Made.isPrefix_land {outcome : Changed} (made : Made t p outcome) (straight : p.Straight)
    {k : Location} (absent : t.lookup? k = none)
    (directory : outcome.2.lookup? k = some .directory) :
    k <+: p.land t.here := by
  rcases made.on_way k directory with before | ⟨front, some_component, ⟨rest, whole⟩, rfl⟩
  · exact absurd (absent.symm.trans before) (by simp)
  · have no_root : Component.root ∉ rest := by
      intro member
      apply p.root_not_mem_tail_components
      rw [← whole, List.tail_append_of_ne_nil some_component]
      exact List.mem_append_right _ member
    have no_parent : Component.parent ∉ rest := by
      intro member
      apply straight
      rw [← whole]
      exact List.mem_append_right _ member
    rw [Path.land, ← whole, List.foldl_append]
    exact isPrefix_foldl_advance no_root no_parent

/-! ## Directories below a directory -/

/-- Whether nothing but directories is on the way down from a location. -/
def Unblocked (t : FileTree) (l : Location) (names : List Name) : Prop :=
  ∀ front, front <+: names →
    t.lookup? (l ++ front) = none ∨ t.lookup? (l ++ front) = some .directory

theorem Unblocked.of_isPrefix {names front : List Name} (unblocked : t.Unblocked l names)
    (above : front <+: names) : t.Unblocked l front :=
  fun _ is_above => unblocked _ (is_above.trans above)

/-- What is at a location once the directories on the way down from another are made. -/
def laid (t : FileTree) (l : Location) (names : List Name) (k : Location) : Option Entry :=
  if l <+: k ∧ k <+: l ++ names then some .directory else t.lookup? k

theorem laid_of_directory {names : List Name} (there : t.lookup? (l ++ names) = some .directory)
    (k : Location) : t.laid l names k = t.lookup? k := by
  rw [laid]
  split
  · rename_i on_way
    exact (directory_above there on_way.2).symm
  · rfl

theorem laid_concat (t : FileTree) (l : Location) (front : List Name) (name : Name)
    (k : Location) :
    t.laid l (front ++ [name]) k =
      if k = l ++ (front ++ [name]) then some .directory else t.laid l front k := by
  by_cases last : k = l ++ (front ++ [name])
  · rw [if_pos last, laid, if_pos ⟨by simp [last], by rw [last]⟩]
  · have on_way_iff : k <+: l ++ (front ++ [name]) ↔ k <+: l ++ front := by
      rw [← List.append_assoc, List.prefix_concat_iff, List.append_assoc, or_iff_right last]
    simp only [laid, if_neg last, on_way_iff]

theorem tread_normal_eq_notFound {names : List Name} (start : t.lookup? l = some .directory)
    (unblocked : t.Unblocked l names)
    (missing : t.lookup? (l ++ names.dropLast) ≠ some .directory) :
    t.tread l (names.map .normal) = .error .notFound := by
  induction names generalizing l with
  | nil => exact absurd (by simpa using start) missing
  | cons name names induction =>
      cases names with
      | nil => exact absurd (by simpa using start) missing
      | cons next names =>
          rw [List.map_cons, tread, List.foldlM_cons,
            stride_eq_ok_iff.mpr ⟨rfl, Or.inr start⟩, Component.advance]
          change t.tread (l ++ [name]) _ = _
          rcases unblocked [name] (by simp) with absent | directory
          · rw [List.map_cons, tread, List.foldlM_cons]
            simp [stride, absent, bind, Except.bind]
          · apply induction directory
            · intro front above
              rw [List.append_assoc]
              exact unblocked ([name] ++ front) (by simpa using above)
            · simpa using missing

theorem makeDirectory_descend (free : t.LinkFree) (opens : t.Opens p l) {front : List Name}
    {name : Name} (parent : t.lookup? (l ++ front) = some .directory)
    (absent : t.lookup? (l ++ (front ++ [name])) = none) :
    ∃ t', t.makeDirectory (p.descend (front ++ [name])) = .ok t' ∧ Grows t t' ∧
      ∀ k, t'.lookup? k =
        if k = l ++ (front ++ [name]) then some .directory else t.lookup? k := by
  have some_name : front ++ [name] ≠ [] := by simp
  have led : t.tread l ((front ++ [name]).map .normal) = .ok (l ++ (front ++ [name])) :=
    (tread_normal_iff some_name).mpr ⟨rfl, by rwa [List.dropLast_concat]⟩
  have above : t.lookup? (l ++ (front ++ [name])).dropLast = some .directory := by
    rwa [← List.append_assoc, List.dropLast_concat]
  have other : t.lookup? (l ++ (front ++ [name])) ≠ some .directory := by
    rw [absent]
    simp
  have made : t.makeDirectory (p.descend (front ++ [name])) =
      .ok (t.place (l ++ (front ++ [name])) .directory above other) := by
    rw [makeDirectory, withoutEndSlash_of_open (p.endsInSlash_descend some_name),
      locateName_eq_locate free, locate_descend free opens some_name, led]
    simp only [absent]
    exact put_of_parent above other
  exact ⟨_, made, grows_place above absent other, lookup?_place above other⟩

theorem makeDirectory_descend_of_directory (free : t.LinkFree) (opens : t.Opens p l)
    {names : List Name} (some_name : names ≠ [])
    (there : t.lookup? (l ++ names) = some .directory) :
    t.makeDirectory (p.descend names) = .error .alreadyExists ∧
      t.isDir (p.descend names) = true := by
  have parent : t.lookup? (l ++ names.dropLast) = some .directory := by
    apply directory_above there
    rw [List.prefix_append_right_inj]
    exact List.dropLast_prefix names
  have led : t.tread l (names.map .normal) = .ok (l ++ names) :=
    (tread_normal_iff some_name).mpr ⟨rfl, parent⟩
  have located : t.locate (p.descend names) = .ok (l ++ names) := by
    rw [locate_descend free opens some_name, led]
  constructor
  · rw [makeDirectory, withoutEndSlash_of_open (p.endsInSlash_descend some_name),
      locateName_eq_locate free, located]
    simp only [there]
  · refine isDir_iff.mpr ⟨l ++ names, ?_⟩
    rw [find, located]
    simp only [there]

/-- Below a directory, directories are made on the way down when no file is in the way. -/
theorem makeParents_descend (free : t.LinkFree) (opens : t.Opens p l) {names : List Name}
    (some_name : names ≠ []) (unblocked : t.Unblocked l names) {fuel : Nat}
    (enough : names.length ≤ fuel) :
    ∃ t', t.makeParents fuel (p.descend names) = (.ok (), t') ∧ Grows t t' ∧
      ∀ k, t'.lookup? k = t.laid l names k := by
  induction names using List.reverseRecOn generalizing fuel with
  | nil => exact absurd rfl some_name
  | append_singleton front name induction =>
      have some_component : (p.descend (front ++ [name])).components ≠ [] := by
        simp [Path.components_descend]
      rw [List.length_append, List.length_singleton] at enough
      obtain ⟨fuel, rfl⟩ : ∃ n, fuel = n + 1 := ⟨fuel - 1, by omega⟩
      rw [makeParents, if_neg some_component]
      by_cases parent : t.lookup? (l ++ front) = some .directory
      · rcases unblocked (front ++ [name]) List.prefix_rfl with absent | there
        · obtain ⟨t', made, grows, lookup⟩ := makeDirectory_descend free opens parent absent
          refine ⟨t', by rw [made], grows, fun k => ?_⟩
          rw [lookup k, laid_concat, laid_of_directory parent]
        · obtain ⟨exists_already, is_dir⟩ :=
            makeDirectory_descend_of_directory free opens some_name there
          refine ⟨t, by rw [exists_already]; simp [is_dir], .refl t, fun k => ?_⟩
          rw [laid_of_directory there]
      · have some_front : front ≠ [] := by
          rintro rfl
          exact parent (by rw [List.append_nil, opens.2])
        have failed : t.makeDirectory (p.descend (front ++ [name])) = .error .notFound := by
          rw [makeDirectory, withoutEndSlash_of_open (p.endsInSlash_descend some_name),
            locateName_eq_locate free, locate_descend free opens some_name,
            tread_normal_eq_notFound opens.2 unblocked (by rwa [List.dropLast_concat])]
        obtain ⟨t₁, made₁, grows₁, lookup₁⟩ := induction some_front
          (unblocked.of_isPrefix (List.prefix_append front [name])) (Nat.le_of_succ_le_succ enough)
        have parent₁ : t₁.lookup? (l ++ front) = some .directory := by
          rw [lookup₁, laid, if_pos ⟨List.prefix_append l front, List.prefix_rfl⟩]
        have absent₁ : t₁.lookup? (l ++ (front ++ [name])) = none := by
          rw [lookup₁, laid, if_neg, ← List.append_assoc]
          · exact lookup?_eq_none_below parent (List.prefix_append _ _) (by simp)
          · rintro ⟨-, shorter⟩
            exact absurd shorter.length_le (by simp)
        obtain ⟨t', made, grows, lookup⟩ := makeDirectory_descend (grows₁.linkFree free)
          (grows₁.opens opens) parent₁ absent₁
        refine ⟨t', ?_, grows₁.trans grows, fun k => ?_⟩
        · rw [failed, Path.parent?_descend p some_front]
          simp only [made₁, made]
        · rw [lookup k, lookup₁ k, laid_concat]

theorem makeDirectories_descend (free : t.LinkFree) (opens : t.Opens p l) {names : List Name}
    (some_name : names ≠ []) (unblocked : t.Unblocked l names) :
    ∃ t', t.makeDirectories (p.descend names) = (.ok (), t') ∧ Grows t t' ∧
      ∀ k, t'.lookup? k = t.laid l names k := by
  apply makeParents_descend free opens some_name unblocked
  rw [Path.components_descend, List.length_append, List.length_map]
  omega

end FileTree
end PackageBuild
