import PackageBuild.FileTree.Change
import PackageBuild.FileTree.Walk
import Mathlib.Data.List.Infix
/-!
# What is where in a file tree

Every operation on a tree is described by what it leaves at each location. All that lies below an
entry lies below a directory, so the locations above an entry are directories.
-/

namespace PackageBuild

theorem Entry.exists_eq_file {e : Entry} (regular : e.isFile = true) :
    ∃ content executable, e = .file content executable := by
  cases e with
  | directory => exact absurd regular (by simp [Entry.isFile])
  | file content executable => exact ⟨content, executable, rfl⟩
  | link target => exact absurd regular (by simp [Entry.isFile])

namespace FileTree

variable {t : FileTree} {top l k : Location} {e : Entry}

theorem lookup?_of_ne_nil (some_name : l ≠ []) : t.lookup? l = t.entries[l]? := if_neg some_name

theorem ext_lookup? {t' : FileTree} (here : t'.here = t.here)
    (same : ∀ k, t'.lookup? k = t.lookup? k) : t' = t := by
  have entries : t'.entries = t.entries := by
    apply Std.ExtTreeMap.ext_getElem?
    intro k
    by_cases root : k = []
    · rw [root, t'.rootless, t.rootless]
    · have there := same k
      rwa [lookup?_of_ne_nil root, lookup?_of_ne_nil root] at there
  cases t
  cases t'
  simp only at entries here
  simp only [entries, here]

theorem atOrBelow_iff : atOrBelow top l = true ↔ top <+: l := by
  rw [atOrBelow, List.isPrefixOf_iff_prefix]

theorem below_iff : below top l = true ↔ top <+: l ∧ l ≠ top := by
  rw [below, Bool.and_eq_true, List.isPrefixOf_iff_prefix, bne_iff_ne]

/-- Above every entry there are directories. -/
theorem lookup?_above (found : t.lookup? k = some e) (above : l <+: k) (other : l ≠ k) :
    t.lookup? l = some .directory := by
  obtain ⟨rest, rfl⟩ := above
  induction rest using List.reverseRecOn generalizing e with
  | nil => exact absurd (List.append_nil l).symm other
  | append_singleton rest name induction =>
      have parent : t.lookup? (l ++ rest) = some .directory := by
        have := lookup?_dropLast found
        rwa [← List.append_assoc, List.dropLast_concat] at this
      by_cases last : rest = []
      · rw [last, List.append_nil] at parent
        exact parent
      · exact induction parent (by simpa using last)

theorem directory_above (found : t.lookup? k = some .directory) (above : l <+: k) :
    t.lookup? l = some .directory := by
  by_cases same : l = k
  · rwa [same]
  · exact lookup?_above found above same

/-- Nothing lies below a location that is no directory. -/
theorem lookup?_eq_none_below (absent : t.lookup? l ≠ some .directory) (below : l <+: k)
    (other : l ≠ k) : t.lookup? k = none := by
  cases found : t.lookup? k with
  | none => rfl
  | some e => exact absurd (lookup?_above found below other) absent

theorem lookup?_place (parent : t.lookup? l.dropLast = some .directory)
    (free : t.lookup? l ≠ some .directory) (k : Location) :
    (t.place l e parent free).lookup? k = if k = l then some e else t.lookup? k := by
  by_cases root : k = []
  · have proper : l ≠ [] := by
      rintro rfl
      exact free rfl
    rw [root, if_neg (Ne.symm proper)]
    rfl
  · rw [lookup?_of_ne_nil root, lookup?_of_ne_nil root, place, Std.ExtTreeMap.getElem?_insert]
    by_cases same : k = l
    · rw [if_pos same, if_pos (by rw [same]; exact Std.ReflCmp.compare_self)]
    · rw [if_neg same, if_neg]
      intro equal
      exact same (Std.LawfulEqOrd.eq_of_compare equal).symm

theorem lookup?_without {gone : Location → Bool}
    (down : ∀ l : Location, gone l.dropLast = true → gone l = true) (proper : k ≠ []) :
    (t.without gone down).lookup? k = if gone k = true then none else t.lookup? k := by
  rw [lookup?_of_ne_nil proper, lookup?_of_ne_nil proper, without,
    Std.ExtTreeMap.getElem?_filter']
  cases t.entries[k]? with
  | none => simp
  | some e => cases gone k <;> simp

/-- Removing a location removes all that lies at it or below. -/
theorem lookup?_removeAt (proper : top ≠ []) (k : Location) :
    (t.removeAt top).lookup? k = if top <+: k then none else t.lookup? k := by
  by_cases root : k = []
  · rw [root, if_neg (by simpa using proper)]
    rfl
  · simp only [removeAt, lookup?_without _ root, atOrBelow_iff]

theorem lookup?_removeBelow (k : Location) :
    (t.removeBelow top).lookup? k = if top <+: k ∧ k ≠ top then none else t.lookup? k := by
  by_cases root : k = []
  · have kept : ¬(top <+: k ∧ k ≠ top) := by
      rintro ⟨above, other⟩
      rw [root] at above other
      exact other (List.prefix_nil.mp above).symm
    rw [if_neg kept, root]
    rfl
  · simp only [removeBelow, lookup?_without _ root, below_iff]

/-- Removing a location at which there is nothing changes nothing. -/
theorem removeAt_of_lookup?_eq_none (absent : t.lookup? top = none) : t.removeAt top = t := by
  have proper : top ≠ [] := by
    rintro rfl
    simp at absent
  refine ext_lookup? rfl fun k => ?_
  rw [lookup?_removeAt proper]
  split
  · rename_i below
    by_cases same : top = k
    · rw [← same, absent]
    · rw [lookup?_eq_none_below (by simp [absent]) below same]
  · rfl

theorem mem_entriesBelow_iff {way : Location} :
    (way, e) ∈ t.entriesBelow top ↔ way ≠ [] ∧ t.lookup? (top ++ way) = some e := by
  rw [entriesBelow, List.mem_map]
  constructor
  · rintro ⟨⟨k, e'⟩, member, same⟩
    obtain ⟨listed, under⟩ := List.mem_filter.mp member
    obtain ⟨⟨way', rfl⟩, other⟩ := below_iff.mp under
    obtain ⟨rfl, rfl⟩ := Prod.mk.inj same
    have some_way : way' ≠ [] := by
      rintro rfl
      exact other (List.append_nil top)
    rw [Std.ExtTreeMap.mem_toList_iff_getElem?_eq_some] at listed
    simp only [List.drop_left]
    exact ⟨some_way, by rw [lookup?_of_ne_nil (by simp [some_way]), listed]⟩
  · rintro ⟨some_way, found⟩
    rw [lookup?_of_ne_nil (by simp [some_way])] at found
    refine ⟨(top ++ way, e), List.mem_filter.mpr ⟨?_, ?_⟩, by simp⟩
    · exact Std.ExtTreeMap.mem_toList_iff_getElem?_eq_some.mpr found
    · exact below_iff.mpr ⟨List.prefix_append top way, by simpa using some_way⟩

/-- Whether there is a regular file at a location. -/
def HoldsFile (t : FileTree) (l : Location) : Prop :=
  ∃ content executable, t.lookup? l = some (.file content executable)

theorem holdsFile_of_isFile (found : t.lookup? l = some e) (regular : e.isFile = true) :
    t.HoldsFile l := by
  obtain ⟨content, executable, rfl⟩ := Entry.exists_eq_file regular
  exact ⟨content, executable, found⟩

instance (t : FileTree) (l : Location) : Decidable (t.HoldsFile l) :=
  decidable_of_iff ((t.lookup? l).any Entry.isFile = true) <| by
    constructor
    · intro held
      obtain ⟨e, found, regular⟩ := (Option.any_eq_true _ _).mp held
      exact holdsFile_of_isFile found regular
    · rintro ⟨content, executable, found⟩
      rw [found]
      rfl

/-! ## Trees without links -/

/-- Whether a tree holds regular files and directories only. -/
def LinkFree (t : FileTree) : Prop := ∀ l target, t.lookup? l ≠ some (.link target)

theorem LinkFree.of_lookup? {t' : FileTree} (free : t.LinkFree)
    (kept : ∀ l e, t'.lookup? l = some e →
      t.lookup? l = some e ∨ e = .directory ∨ e.isFile = true) :
    t'.LinkFree := by
  intro l target found
  rcases kept l _ found with same | directory | file
  · exact free l target same
  · exact absurd directory (by simp)
  · exact absurd file (by simp [Entry.isFile])

theorem LinkFree.directory_or_file (free : t.LinkFree) (found : t.lookup? l = some e) :
    e = .directory ∨ e.isFile = true := by
  cases e with
  | directory => exact Or.inl rfl
  | file content executable => exact Or.inr rfl
  | link target => exact absurd found (free l target)

instance (t : FileTree) : Decidable t.LinkFree :=
  decidable_of_iff (∀ item ∈ t.entries.toList,
      item.1 = [] ∨ item.2.isDirectory = true ∨ item.2.isFile = true) <| by
    constructor
    · intro plain l target found
      by_cases root : l = []
      · rw [root, lookup?_nil] at found
        exact absurd found (by simp)
      · rw [lookup?_of_ne_nil root, ← Std.ExtTreeMap.mem_toList_iff_getElem?_eq_some] at found
        rcases plain _ found with empty | other
        · exact root empty
        · exact absurd other (by simp [Entry.isFile, Entry.isDirectory])
    · rintro free ⟨l, e⟩ member
      by_cases root : l = []
      · exact Or.inl root
      · rw [Std.ExtTreeMap.mem_toList_iff_getElem?_eq_some, ← lookup?_of_ne_nil root] at member
        rcases free.directory_or_file member with rfl | regular
        · exact Or.inr (Or.inl rfl)
        · exact Or.inr (Or.inr regular)

/-- The tree that entries make up when they are put in place one after the other. -/
def ofEntries (items : List (Location × Entry)) : FileTree :=
  items.foldl (fun t item => (t.put item.1 item.2).toOption.getD t) .empty

end FileTree
end PackageBuild
