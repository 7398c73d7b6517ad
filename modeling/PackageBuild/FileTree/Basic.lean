import PackageBuild.Failure
import Std.Data.ExtTreeMap
/-!
# File trees

A file tree maps locations, which are lists of names from the root, to what is there. Every entry
lies in a directory, and this is part of the type. Trees are compared by what is at each location,
and their entries are listed in the order of a walk that visits the names of every directory in
increasing order.
-/

namespace PackageBuild

/-- A place in a file tree: the names on the way from the root. -/
abbrev Location := List Name

/-- Contents of files are compared byte by byte. -/
instance instDecidableEqContent : DecidableEq ByteArray := ByteArray.instDecidableEq

/-- What can be at a location. -/
inductive Entry where
  | directory
  | file (content : ByteArray) (executable : Bool)
  | link (target : Path)
deriving DecidableEq

namespace Entry

/-- Whether an entry is a regular file. -/
def isFile : Entry → Bool
  | .file .. => true
  | _ => false

/-- Whether an entry is a directory. -/
def isDirectory : Entry → Bool
  | .directory => true
  | _ => false

end Entry

/-- The entries of a tree, by location. -/
abbrev Entries := Std.ExtTreeMap Location Entry

namespace Entries

/-- Whether a location is a directory; the root always is one. -/
def IsDirectory (entries : Entries) (l : Location) : Prop :=
  l = [] ∨ entries[l]? = some .directory

instance (entries : Entries) (l : Location) : Decidable (entries.IsDirectory l) :=
  inferInstanceAs (Decidable (_ ∨ _))

end Entries

/-- A tree of directories, files and links. -/
structure FileTree where
  /-- What is at each location below the root. -/
  entries : Entries
  /-- The directory in which relative paths start. -/
  here : Location := []
  /-- The root itself is no entry. -/
  rootless : entries[([] : Location)]? = none
  /-- Every entry lies in a directory. -/
  closed : ∀ {l : Location} {e : Entry}, entries[l]? = some e → entries.IsDirectory l.dropLast

namespace FileTree

/-- A tree with nothing but its root. -/
def empty : FileTree where
  entries := ∅
  rootless := by simp
  closed h := by simp at h

instance : Inhabited FileTree := ⟨empty⟩

def lookup? (t : FileTree) (l : Location) : Option Entry :=
  if l = [] then some .directory else t.entries[l]?

@[simp]
theorem lookup?_nil (t : FileTree) : t.lookup? [] = some .directory := rfl

theorem lookup?_eq_directory_iff (t : FileTree) (l : Location) :
    t.lookup? l = some .directory ↔ t.entries.IsDirectory l := by
  by_cases h : l = []
  · simp [lookup?, Entries.IsDirectory, h]
  · simp [lookup?, Entries.IsDirectory, h]

/-- Every entry lies in a directory. -/
theorem lookup?_dropLast {t : FileTree} {l : Location} {e : Entry} (h : t.lookup? l = some e) :
    t.lookup? l.dropLast = some .directory := by
  by_cases hl : l = []
  · simp [hl]
  · rw [lookup?, if_neg hl] at h
    exact (t.lookup?_eq_directory_iff _).2 (t.closed h)

/-- The tree with an entry at a location that lies in a directory and is none itself. -/
def place (t : FileTree) (l : Location) (e : Entry)
    (parent : t.lookup? l.dropLast = some .directory)
    (free : t.lookup? l ≠ some .directory) : FileTree where
  entries := t.entries.insert l e
  here := t.here
  rootless := by
    rw [Std.ExtTreeMap.getElem?_insert, if_neg]
    · exact t.rootless
    · intro hcmp
      exact free (by rw [Std.LawfulEqOrd.eq_of_compare hcmp]; rfl)
  closed {k e'} h := by
    have hl : l ≠ [] := fun hl => free (by simp [hl])
    rw [lookup?_eq_directory_iff] at parent
    have hfree : t.entries[l]? ≠ some .directory := by simpa [lookup?, hl] using free
    have keep {d : Location} (hd : t.entries.IsDirectory d) :
        Entries.IsDirectory (t.entries.insert l e) d := by
      rcases hd with hd | hd
      · exact Or.inl hd
      · right
        rw [Std.ExtTreeMap.getElem?_insert, if_neg]
        · exact hd
        · intro hcmp
          exact hfree (by rw [Std.LawfulEqOrd.eq_of_compare hcmp]; exact hd)
    rw [Std.ExtTreeMap.getElem?_insert] at h
    split at h
    · rename_i hcmp
      rw [← Std.LawfulEqOrd.eq_of_compare hcmp]
      exact keep parent
    · exact keep (t.closed h)

/-- The tree without the locations that satisfy a test, which must hold of all that lies below a
location of which it holds. -/
def without (t : FileTree) (gone : Location → Bool)
    (down : ∀ l : Location, gone l.dropLast = true → gone l = true) : FileTree where
  entries := t.entries.filter fun l _ => !gone l
  here := t.here
  rootless := by
    rw [Std.ExtTreeMap.getElem?_filter', t.rootless]
    rfl
  closed {l e} h := by
    rw [Std.ExtTreeMap.getElem?_filter] at h
    obtain ⟨hentry, hkeep⟩ := Option.pfilter_eq_some_iff.1 h
    have hl : gone l = false := by simpa using hkeep
    rcases t.closed hentry with hd | hd
    · exact Or.inl hd
    · right
      rw [Std.ExtTreeMap.getElem?_filter]
      refine Option.pfilter_eq_some_iff.2 ⟨hd, ?_⟩
      simp only [Std.ExtTreeMap.getKey_eq, Bool.not_eq_true']
      cases hgone : gone l.dropLast with
      | false => rfl
      | true => rw [down l hgone] at hl; exact Bool.noConfusion hl

/-- Whether a location is `top` or lies below it. -/
def atOrBelow (top l : Location) : Bool := top.isPrefixOf l

/-- Whether a location lies below `top`. -/
def below (top l : Location) : Bool := top.isPrefixOf l && l != top

theorem atOrBelow_of_dropLast (top l : Location) (h : atOrBelow top l.dropLast = true) :
    atOrBelow top l = true := by
  rw [atOrBelow, List.isPrefixOf_iff_prefix] at *
  exact h.trans (List.dropLast_prefix l)

theorem below_of_dropLast (top l : Location) (h : below top l.dropLast = true) :
    below top l = true := by
  simp only [below, Bool.and_eq_true, List.isPrefixOf_iff_prefix, bne_iff_ne, ne_eq] at *
  refine ⟨h.1.trans (List.dropLast_prefix l), fun hl => h.2 ?_⟩
  subst hl
  exact ((List.dropLast_prefix l).eq_of_length_le h.1.length_le)

/-- The tree without a location and all that lies below it. -/
def removeAt (t : FileTree) (top : Location) : FileTree :=
  t.without (atOrBelow top) (atOrBelow_of_dropLast top)

/-- The tree without all that lies below a location. -/
def removeBelow (t : FileTree) (top : Location) : FileTree :=
  t.without (below top) (below_of_dropLast top)

/-- All that lies below a directory, each with its way from there, in the order of a walk. -/
def entriesBelow (t : FileTree) (top : Location) : List (Location × Entry) :=
  (t.entries.toList.filter fun (l, _) => below top l).map fun (l, e) => (l.drop top.length, e)

end FileTree
end PackageBuild
