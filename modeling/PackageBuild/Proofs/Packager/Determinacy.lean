import PackageBuild.Proofs.Packager.Steps
/-!
# What packaging depends on

Packaging runs no commands, and what it returns and leaves depends on the files alone. It fails for
a missing source, for what the system refuses, or for a directory that cannot be walked.
-/

namespace PackageBuild

namespace Action

variable {faults : Cause → Prop} (kind : ∀ e, faults (.os e))
include kind

theorem filesOnly_makeDirectories (dir : Path) : FilesOnly faults (makeDirectories dir) :=
  filesOnly_change _ _ kind

theorem filesOnly_removeDirectory (dir : Path) : FilesOnly faults (removeDirectory dir) :=
  filesOnly_change _ _ kind

theorem filesOnly_copyFile (src dst : Path) : FilesOnly faults (copyFile src dst) :=
  closed_filesOnly.of_copyFile (fun parent _ => filesOnly_makeDirectories kind parent)
    (filesOnly_change _ _ kind)

end Action

namespace Packager

open PackageBuild.Action

/-- What clearing and copying can fail for. -/
inductive CopyFault : Cause → Prop
  | refused (error : OsError) : CopyFault (.os error)
  | unwalkable (directory : Path) (error : OsError) : CopyFault (.walk directory error)

/-- What packaging can fail for. -/
inductive Fault : Cause → Prop
  | missing (source : MissingSource) : Fault (.package source)
  | refused (error : OsError) : Fault (.os error)
  | unwalkable (directory : Path) (error : OsError) : Fault (.walk directory error)

theorem CopyFault.fault {cause : Cause} (kind : CopyFault cause) : Fault cause := by
  cases kind with
  | refused error => exact .refused error
  | unwalkable directory error => exact .unwalkable directory error

theorem filesOnly_copyRules (packageDir : Path) (guard : Option Location) (rules : List CopyRule) :
    FilesOnly CopyFault (copyRules packageDir guard rules) :=
  closed_filesOnly.of_copyRules guard rules (fun _ _ _ => filesOnly_fail (.unwalkable _ _))
    fun _ _ _ _ _ => filesOnly_copyFile .refused _ _

/-- Packaging depends on the files alone, and only the strict policy lets it fail for a missing
source. -/
theorem filesOnly_package_of {faults : Cause → Prop} {packager : Packager}
    (missing : packager.policy = .strict → ∀ source, faults (.package source))
    (copying : ∀ cause, CopyFault cause → faults cause) (packageDir : Path) :
    FilesOnly faults (packager.package packageDir) := by
  have refused (error : OsError) : faults (.os error) := copying _ (.refused error)
  apply closed_filesOnly.of_package
  · intro rule _
    cases policy : packager.policy with
    | strict => exact filesOnly_fail (missing policy _)
    | lenient => exact closed_filesOnly.of_warn _
  · exact fun _ _ => filesOnly_removeDirectory refused _
  · exact filesOnly_makeDirectories refused _
  · exact fun _ _ _ => filesOnly_fail (copying _ (.unwalkable _ _))
  · exact fun _ _ _ _ _ => filesOnly_copyFile refused _ _

theorem filesOnly_package (packager : Packager) (packageDir : Path) :
    FilesOnly Fault (packager.package packageDir) :=
  filesOnly_package_of (fun _ => .missing) (fun _ => CopyFault.fault) packageDir

end Packager
end PackageBuild
