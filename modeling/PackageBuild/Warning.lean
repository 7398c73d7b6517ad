import PackageBuild.Path
/-!
# Warnings

Some findings stop nothing but are told to the user as they happen. A finding is a value; its
wording is in this module.
-/

namespace PackageBuild

/-- Something worth telling that stops nothing. -/
inductive Warning where
  /-- A tag consists of its prefix only. -/
  | emptyTag (tag : String)
  /-- The version of the manifest is used although a tag names another. -/
  | tagReplaced (fallback tag : String)
  /-- An option has the name of a variable that is always set. -/
  | optionIgnored (name : String)
  /-- A directory to copy from is missing. -/
  | nothingCopied (category : String) (source : Path)
  /-- Two files are copied to the same place. -/
  | overwrites (later earlier destination : Path)
  /-- There is no package to describe yet. -/
  | noPackage (directory : Path)
deriving DecidableEq, Repr

namespace Warning

def message : Warning → String
  | .emptyTag tag => "ignoring CI tag `" ++ tag ++ "`: no version after the prefix"
  | .tagReplaced fallback tag =>
    "static version `" ++ fallback ++ "` replaces tag-derived version `" ++ tag ++ "`"
  | .optionIgnored name => "option `" ++ name ++ "` is ignored; package tests stay disabled"
  | .nothingCopied category source =>
    "no " ++ category ++ " copied: " ++ source.text ++ " does not exist"
  | .overwrites later earlier destination =>
    later.text ++ " overwrites " ++ earlier.text ++ " in " ++ destination.text
  | .noPackage directory =>
    directory.text ++ " does not exist; run `gantry build` or `gantry package` first"

end Warning

end PackageBuild
