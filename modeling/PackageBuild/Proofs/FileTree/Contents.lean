import PackageBuild.Proofs.FileTree.Directories
/-!
# Removing directories and copying files

A removal changes nothing but what lies at or below the location its path stands for, and a copy
changes nothing but its destination and the directories on the way there.
-/

namespace PackageBuild
namespace FileTree

variable {t t' : FileTree} {l : Location} {p : Path}

/-! ## What changes spare -/

/-- Whether one tree still has all entries of another at the locations to spare, and no files but
its. -/
structure Spares (spared : Location → Prop) (t t' : FileTree) : Prop where
  /-- Relative paths start where they did. -/
  here : t'.here = t.here
  /-- No links are made. -/
  free : t.LinkFree → t'.LinkFree
  /-- What is there stays. -/
  kept : ∀ k e, spared k → t.lookup? k = some e → t'.lookup? k = some e
  /-- No files appear. -/
  files : ∀ k e, spared k → e.isFile = true → t'.lookup? k = some e → t.lookup? k = some e

namespace Spares

variable {spared : Location → Prop}

theorem refl (t : FileTree) : Spares spared t t := ⟨rfl, id, fun _ _ _ => id, fun _ _ _ _ => id⟩

theorem trans {t'' : FileTree} (first : Spares spared t t') (second : Spares spared t' t'') :
    Spares spared t t'' where
  here := second.here.trans first.here
  free free := second.free (first.free free)
  kept k e outside found := second.kept k e outside (first.kept k e outside found)
  files k e outside regular found :=
    first.files k e outside regular (second.files k e outside regular found)

theorem of_lookup?_eq (here : t'.here = t.here) (free : t'.LinkFree)
    (same : ∀ k, spared k → t'.lookup? k = t.lookup? k) : Spares spared t t' where
  here := here
  free _ := free
  kept k e outside found := by rw [same k outside, found]
  files k e outside _ found := by rwa [same k outside] at found

theorem weaken {fewer : Location → Prop} (spares : Spares spared t t')
    (included : ∀ k, fewer k → spared k) : Spares fewer t t' where
  here := spares.here
  free := spares.free
  kept k e outside := spares.kept k e (included k outside)
  files k e outside := spares.files k e (included k outside)

end Spares

theorem Grows.spares {spared : Location → Prop} (grows : Grows t t') : Spares spared t t' where
  here := grows.here
  free := grows.linkFree
  kept _ _ _ := grows.kept
  files k e _ regular found := by
    rcases grows.added found with before | rfl
    · exact before
    · exact absurd regular (by simp [Entry.isFile])

theorem spares_removeAt (proper : l ≠ []) : Spares (fun k => ¬l <+: k) t (t.removeAt l) where
  here := rfl
  free free := free.of_lookup? fun k e found => by
    rw [lookup?_removeAt proper] at found
    split at found
    · exact absurd found (by simp)
    · exact Or.inl found
  kept k e outside found := by rw [lookup?_removeAt proper, if_neg outside, found]
  files k e outside _ found := by rwa [lookup?_removeAt proper, if_neg outside] at found

theorem spares_removeBelow : Spares (fun k => ¬l <+: k) t (t.removeBelow l) where
  here := rfl
  free free := free.of_lookup? fun k e found => by
    rw [lookup?_removeBelow] at found
    split at found
    · exact absurd found (by simp)
    · exact Or.inl found
  kept k e outside found := by
    rw [lookup?_removeBelow, if_neg (fun below => outside below.1), found]
  files k e outside _ found := by
    rwa [lookup?_removeBelow, if_neg (fun below => outside below.1)] at found

theorem spares_place {e : Entry} (parent : t.lookup? l.dropLast = some .directory)
    (other : t.lookup? l ≠ some .directory) (file : e.isFile = true) :
    Spares (fun k => k ≠ l) t (t.place l e parent other) where
  here := rfl
  free free := free.of_lookup? fun k e' found => by
    rw [lookup?_place] at found
    split at found
    · exact Or.inr (Or.inr (Option.some.inj found ▸ file))
    · exact Or.inl found
  kept k e' outside found := by rw [lookup?_place, if_neg outside, found]
  files k e' outside _ found := by rwa [lookup?_place, if_neg outside] at found

/-! ## Removing -/

theorem eq_land_of_locate (free : t.LinkFree) (located : t.locate p = .ok l) :
    l = p.land t.here := by
  have some_text : p.text ≠ "" := by
    intro empty
    simp [locate, linkLimit, locateFrom, empty] at located
  rw [locate_eq_tread free some_text] at located
  rw [eq_foldl_of_tread located, Path.foldl_steps]

/-- A removal leaves the tree as it is, or without the location its path stands for, or without what
lies below. -/
theorem removeDirectory_cases (free : t.LinkFree) (p : Path) :
    (t.removeDirectory p).2 = t ∨ (t.removeDirectory p).2 = t.removeAt (p.land t.here) ∨
      (t.removeDirectory p).2 = t.removeBelow (p.land t.here) := by
  rw [removeDirectory, locateName_eq_locate free]
  split
  · exact Or.inl rfl
  · rename_i l located
    obtain rfl := eq_land_of_locate free located
    split
    · exact Or.inl rfl
    · exact Or.inr (Or.inl rfl)
    · exact Or.inl rfl
    · split
      · exact Or.inr (Or.inr rfl)
      · exact Or.inr (Or.inl rfl)

theorem removeDirectory_spares (free : t.LinkFree) (proper : p.land t.here ≠ []) :
    Spares (fun k => ¬p.land t.here <+: k) t (t.removeDirectory p).2 := by
  rcases removeDirectory_cases free p with same | removed | emptied
  · rw [same]
    exact .refl t
  · rw [removed]
    exact spares_removeAt proper
  · rw [emptied]
    exact spares_removeBelow

theorem lookup?_of_removeAt {k : Location} {e : Entry} (proper : l ≠ [])
    (found : (t.removeAt l).lookup? k = some e) : ¬l <+: k ∧ t.lookup? k = some e := by
  rw [lookup?_removeAt proper] at found
  split at found
  · exact absurd found (by simp)
  · rename_i outside
    exact ⟨outside, found⟩

theorem opens_of_removeAt {k : Location} (proper : l ≠ []) (opens : (t.removeAt l).Opens p k) :
    t.Opens p k := by
  have here : t.here = (t.removeAt l).here := rfl
  exact Opens.mono here (fun _ found => (lookup?_of_removeAt proper found).2) opens

theorem removeBelow_opens {k : Location} (proper : l ≠ []) (opens : (t.removeAt l).Opens p k) :
    (t.removeBelow l).Opens p k := by
  have here : (t.removeBelow l).here = (t.removeAt l).here := rfl
  refine Opens.mono here (fun k found => ?_) opens
  obtain ⟨outside, found⟩ := lookup?_of_removeAt proper found
  rw [lookup?_removeBelow, if_neg (fun below => outside below.1), found]

theorem locateName_descend_singleton (free : t.LinkFree) (opens : t.Opens p l) (name : Name) :
    t.locateName (p.descend [name]) = .ok (l ++ [name]) := by
  rw [locateName_eq_locate free, locate_descend free opens (List.cons_ne_nil name [])]
  exact (tread_normal_iff (List.cons_ne_nil name [])).mpr ⟨rfl, by simpa using opens.2⟩

theorem removalFault_descend (free : t.LinkFree) (opens : t.Opens p l) {name : Name}
    (there : t.lookup? (l ++ [name]) = some .directory) :
    t.removalFault (p.descend [name]) = none := by
  have located := locateName_descend_singleton free opens name
  have open_end : (p.descend [name]).endsInSlash = false :=
    p.endsInSlash_descend (List.cons_ne_nil name [])
  have last : (p.descend [name]).steps.getLast? = some (.normal name) := by
    rw [p.steps_descend (List.cons_ne_nil name [])]
    simp
  rw [removalFault, withoutEndSlash_of_open open_end, last]
  simp only [located, there]

theorem lookup?_removeBelow_self (t : FileTree) (l : Location) :
    (t.removeBelow l).lookup? l = t.lookup? l := by
  rw [lookup?_removeBelow, if_neg (by simp)]

theorem removeDirectory_descend (free : t.LinkFree) {name : Name}
    (opens : (t.removeAt (l ++ [name])).Opens p l)
    (there : t.lookup? (l ++ [name]) = some .directory) :
    t.removeDirectory (p.descend [name]) = (.ok (), t.removeAt (l ++ [name])) := by
  have proper : l ++ [name] ≠ [] := by simp
  have emptied : (t.removeBelow (l ++ [name])).lookup? (l ++ [name]) = some .directory := by
    rw [lookup?_removeBelow_self, there]
  have no_fault := removalFault_descend (spares_removeBelow.free free)
    (removeBelow_opens proper opens) emptied
  rw [removeDirectory, locateName_descend_singleton free (opens_of_removeAt proper opens)]
  simp only [there, no_fault]

theorem removeDirectory_descend_of_missing (free : t.LinkFree) {name : Name}
    (opens : t.Opens p l) (missing : t.lookup? (l ++ [name]) = none) :
    t.removeDirectory (p.descend [name]) = (.error .notFound, t) := by
  rw [removeDirectory, locateName_descend_singleton free opens]
  simp only [missing]

theorem removeDirectory_descend_of_file (free : t.LinkFree) {name : Name} (opens : t.Opens p l)
    {content : ByteArray} {executable : Bool}
    (file : t.lookup? (l ++ [name]) = some (.file content executable)) :
    t.removeDirectory (p.descend [name]) = (.error .notDirectory, t) := by
  rw [removeDirectory, locateName_descend_singleton free opens]
  simp only [file]

/-! ## Copying -/

theorem eq_land_of_locateFile (free : t.LinkFree) (located : t.locateFile p = .ok l) :
    l = p.land t.here := by
  rw [locateFile] at located
  split at located
  · split at located <;> exact absurd located (by simp)
  · exact eq_land_of_locate free located

/-- A copy leaves the tree as it is or puts a file in place at its destination. -/
theorem copyContent_cases (free : t.LinkFree) (src dst : Path) :
    (t.copyContent src dst).2 = t ∨ ∃ e parent other, e.isFile = true ∧
      (t.copyContent src dst).2 = t.place (dst.land t.here) e parent other := by
  rw [copyContent]
  split
  · exact Or.inl rfl
  · split
    · exact Or.inl rfl
    · rename_i goal located
      obtain rfl := eq_land_of_locateFile free located
      dsimp only
      split
      · rename_i t' placed
        obtain ⟨parent, other, rfl⟩ := put_eq_ok placed
        exact Or.inr ⟨_, parent, other, rfl, rfl⟩
      · exact Or.inl rfl
  · exact Or.inl rfl

theorem copyContent_spares (free : t.LinkFree) (src dst : Path) :
    Spares (fun k => k ≠ dst.land t.here) t (t.copyContent src dst).2 := by
  rcases copyContent_cases free src dst with same | ⟨e, parent, other, regular, placed⟩
  · rw [same]
    exact .refl t
  · rw [placed]
    exact spares_place parent other regular

/-- A file is copied into a directory, in place of nothing or of another file. -/
theorem copyContent_descend (free : t.LinkFree) (opens : t.Opens p l) {front : List Name}
    {name : Name} {src : Path} {origin : Location} {content : ByteArray} {executable : Bool}
    (found : t.find src = .ok (origin, .file content executable))
    (parent : t.lookup? (l ++ front) = some .directory)
    (other : t.lookup? (l ++ (front ++ [name])) ≠ some .directory)
    (apart : origin ≠ l ++ (front ++ [name])) :
    ∃ t', t.copyContent src (p.descend (front ++ [name])) = (.ok (), t') ∧
      t'.here = t.here ∧ t'.LinkFree ∧ ∀ k, t'.lookup? k =
        if k = l ++ (front ++ [name]) then some (.file content executable) else t.lookup? k := by
  have some_name : front ++ [name] ≠ [] := by simp
  have above : t.lookup? (l ++ (front ++ [name])).dropLast = some .directory := by
    rwa [← List.append_assoc, List.dropLast_concat]
  have located : t.locateFile (p.descend (front ++ [name])) = .ok (l ++ (front ++ [name])) := by
    rw [locateFile, p.endsInSlash_descend some_name, if_neg Bool.false_ne_true,
      locate_descend free opens some_name]
    exact (tread_normal_iff some_name).mpr ⟨rfl, by rwa [List.dropLast_concat]⟩
  refine ⟨t.place _ (.file content executable) above other, ?_, rfl,
    (spares_place above other rfl).free free, lookup?_place above other⟩
  rw [copyContent, found]
  simp only [located, if_neg apart, put_of_parent above other]

end FileTree

namespace Action

open FileTree

/-- A file is copied to a place in or below a directory, with the directories on the way down, when
no file is in the way. -/
theorem outcome_copyFile_descend {world : World} {p src : Path} {l origin : Location}
    {front : List Name} {name : Name} {content : ByteArray} {executable : Bool}
    (free : world.tree.LinkFree) (opens : world.tree.Opens p l) (some_front : front ≠ [])
    (found : world.tree.find src = .ok (origin, .file content executable))
    (unblocked : world.tree.Unblocked l front)
    (other : world.tree.lookup? (l ++ (front ++ [name])) ≠ some .directory)
    (apart : origin ≠ l ++ (front ++ [name])) :
    ∃ t', (copyFile src (p.descend (front ++ [name]))).outcome world =
        (.ok (), { world with tree := t' }) ∧
      t'.here = world.tree.here ∧ t'.LinkFree ∧ ∀ k, t'.lookup? k =
        if k = l ++ (front ++ [name]) then some (.file content executable)
        else world.tree.laid l front k := by
  obtain ⟨t₁, made, grows, lookup₁⟩ := makeDirectories_descend free opens some_front unblocked
  have parent : t₁.lookup? (l ++ front) = some .directory := by
    rw [lookup₁, laid, if_pos ⟨List.prefix_append l front, List.prefix_rfl⟩]
  have other₁ : t₁.lookup? (l ++ (front ++ [name])) ≠ some .directory := by
    rw [lookup₁, laid, if_neg]
    · exact other
    · rintro ⟨-, shorter⟩
      exact absurd shorter.length_le (by simp)
  obtain ⟨t', copied, here, free', lookup⟩ := copyContent_descend (grows.linkFree free)
    (grows.opens opens) (grows.find found) parent other₁ apart
  refine ⟨t', ?_, here.trans grows.here, free', fun k => by rw [lookup k, lookup₁ k]⟩
  have first : (makeDirectories (p.descend front)).outcome world =
      (.ok (), { world with tree := t₁ }) := by
    rw [makeDirectories, outcome_change, made]
    rfl
  rw [copyFile, Path.parent?_descend p some_front]
  dsimp only
  rw [outcome_bind_ok first, outcome_change]
  dsimp only
  rw [copied]
  rfl

end Action
end PackageBuild
