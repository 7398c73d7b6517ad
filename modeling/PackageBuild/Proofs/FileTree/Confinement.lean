import PackageBuild.Proofs.FileTree.Contents
import PackageBuild.Proofs.FileTree.Directories
import PackageBuild.Proofs.Outcome
/-!
# What a change leaves as it was

Removing a directory and copying a file change what is at or below one location. Directories that
are made for a copy are on the way to it, and where all of that way is there, none are made.
-/

namespace PackageBuild

open FileTree

namespace FileTree

variable {t t' t'' : FileTree} {p src dst : Path} {k : Location}
  {written made : Location → Prop}

/-- Whether one tree is another with changes at some locations and, everywhere else, with nothing
but new directories at some more. -/
structure Confined (written made : Location → Prop) (t t' : FileTree) : Prop where
  /-- Relative paths start where they did. -/
  here : t'.here = t.here
  /-- No links are made. -/
  free : t.LinkFree → t'.LinkFree
  /-- What is there elsewhere stays, and only directories are new. -/
  elsewhere : ∀ k, ¬written k → t'.lookup? k = t.lookup? k ∨
    t.lookup? k = none ∧ t'.lookup? k = some .directory ∧ made k

namespace Confined

theorem refl (t : FileTree) : Confined written made t t := ⟨rfl, id, fun _ _ => Or.inl rfl⟩

theorem trans (first : Confined written made t t') (second : Confined written made t' t'') :
    Confined written made t t'' where
  here := second.here.trans first.here
  free free := second.free (first.free free)
  elsewhere k outside := by
    rcases second.elsewhere k outside with same | ⟨absent, directory, new⟩
    · rw [same]
      exact first.elsewhere k outside
    · rcases first.elsewhere k outside with same | ⟨-, there, -⟩
      · exact Or.inr ⟨same ▸ absent, directory, new⟩
      · exact absurd (absent.symm.trans there) (by simp)

end Confined

/-- Directories are made where their path passes. -/
theorem Made.confined {outcome : Changed} (paved : Made t p outcome)
    (passes : ∀ k, p.Passes t.here k → written k ∨ made k) :
    Confined written made t outcome.2 where
  here := paved.grows.here
  free := paved.grows.linkFree
  elsewhere k outside := by
    cases before : t.lookup? k with
    | some e => exact Or.inl (paved.grows.kept before)
    | none =>
        cases after : outcome.2.lookup? k with
        | none => exact Or.inl rfl
        | some e =>
            rcases paved.grows.added after with there | rfl
            · exact absurd (before.symm.trans there) (by simp)
            · rcases paved.on_way k after with there | on_way
              · exact absurd (before.symm.trans there) (by simp)
              · exact Or.inr ⟨rfl, rfl, (passes k on_way).resolve_left outside⟩

theorem lookup?_removeDirectory (free : t.LinkFree) (proper : p.land t.here ≠ [])
    (outside : ¬p.land t.here <+: k) : (t.removeDirectory p).2.lookup? k = t.lookup? k := by
  rcases removeDirectory_cases free p with same | removed | emptied
  · rw [same]
  · rw [removed, lookup?_removeAt proper, if_neg outside]
  · rw [emptied, lookup?_removeBelow, if_neg fun below => outside below.1]

theorem confined_removeDirectory (free : t.LinkFree) (proper : p.land t.here ≠ [])
    (inside : ∀ k, p.land t.here <+: k → written k) :
    Confined written made t (t.removeDirectory p).2 where
  here := (removeDirectory_spares free proper).here
  free := (removeDirectory_spares free proper).free
  elsewhere k outside := Or.inl (lookup?_removeDirectory free proper (outside ∘ inside k))

theorem lookup?_copyContent (free : t.LinkFree) (other : k ≠ dst.land t.here) :
    (t.copyContent src dst).2.lookup? k = t.lookup? k := by
  rcases copyContent_cases free src dst with same | ⟨e, parent, vacant, -, placed⟩
  · rw [same]
  · rw [placed, lookup?_place, if_neg other]

theorem confined_copyContent (free : t.LinkFree) (src : Path) (inside : written (dst.land t.here)) :
    Confined written made t (t.copyContent src dst).2 where
  here := (copyContent_spares free src dst).here
  free := (copyContent_spares free src dst).free
  elsewhere k outside := by
    refine Or.inl (lookup?_copyContent free ?_)
    rintro rfl
    exact outside inside

end FileTree

namespace Action

/-- Whether changes to a tree without links, seen from a location, are confined. -/
def Confines (here : Location) (written made : Location → Prop) (t t' : FileTree) : Prop :=
  t.LinkFree → t.here = here → Confined written made t t'

variable {here : Location} {written made : Location → Prop} {p src dst : Path}

theorem confines_refl (t : FileTree) : Confines here written made t t := fun _ _ => .refl t

theorem confines_trans (t t' t'' : FileTree) (first : Confines here written made t t')
    (second : Confines here written made t' t'') : Confines here written made t t'' := by
  intro free same
  have confined := first free same
  exact confined.trans (second (confined.free free) (confined.here.trans same))

theorem confines_makeDirectories (passes : ∀ k, p.Passes here k → written k ∨ made k) :
    Keeps (Confines here written made) (makeDirectories p) := by
  refine keeps_change _ fun t free same => ?_
  obtain rfl := same
  exact (makeDirectories_made free p).confined passes

theorem confines_removeDirectory (proper : p.land here ≠ [])
    (inside : ∀ k, p.land here <+: k → written k) :
    Keeps (Confines here written made) (removeDirectory p) := by
  refine keeps_change _ fun t free same => ?_
  obtain rfl := same
  have confined : Confined written made t (t.removeDirectory p).2 :=
    confined_removeDirectory free proper inside
  split
  · rename_i t' missing
    rwa [missing] at confined
  · exact confined

theorem closed_confines : Closed fun _ => Keeps (Confines here written made) :=
  closed_keeps confines_refl confines_trans

theorem confines_copyFile (inside : written (dst.land here))
    (passes : ∀ q : Path, q.components <+: dst.components →
      ∀ k, q.Passes here k → written k ∨ made k) :
    Keeps (Confines here written made) (copyFile src dst) := by
  apply closed_confines.of_copyFile
  · intro parent is_parent
    have shorter : parent.components <+: dst.components := by
      rw [Path.components_parent? is_parent]
      exact List.dropLast_prefix _
    exact confines_makeDirectories (passes parent shorter)
  · refine keeps_change _ fun t free same => ?_
    obtain rfl := same
    exact confined_copyContent free src inside

end Action
end PackageBuild
