import Mathlib.Data.List.DropRight
import PackageBuild.Settings
/-!
# Names of operating systems

A system is known under some names in any case and with blanks around them, and shown under one of
them. Every other name stands for a system of that name. So the name under which a system is shown
always stands for that system.
-/

namespace PackageBuild

namespace Text

theorem trimmed_trimmed (cs : List Char) : trimmed (trimmed cs) = trimmed cs := by
  have starts : (trimmed cs).dropWhile isBlank = trimmed cs := by
    have front : trimmed cs <+: cs.dropWhile isBlank := List.rdropWhile_prefix isBlank _
    refine List.dropWhile_eq_self_iff.mpr fun some_left => ?_
    rw [front.getElem some_left]
    exact List.dropWhile_get_zero_not _ _ _
  change ((trimmed cs).dropWhile isBlank).rdropWhile isBlank = trimmed cs
  rw [starts]
  exact List.rdropWhile_idempotent isBlank (cs.dropWhile isBlank)

theorem trim_trim (text : String) : trim (trim text) = trim text := by
  rw [trim, toList_trim, trimmed_trimmed, trim]

end Text

namespace Os

variable {text name : String} {os : Os}

/-- A name stands for the system that it spells, or for a system of that name if it spells none. -/
inductive Named (name : String) : Os → Prop
  | known {spelling : String} {os : Os} (listed : (spelling, os) ∈ spellings)
      (same : Text.sameIgnoringCase name spelling = true) : Named name os
  | other (foreign : ∀ spelling ∈ spellings, Text.sameIgnoringCase name spelling.1 = false) :
      Named name (.other name)

theorem named_ofName (name : String) : Named name (ofName name) := by
  unfold ofName
  split
  · rename_i spelling os found
    have same := List.find?_some found
    exact .known (List.mem_of_find?_eq_some found) same
  · rename_i unfound
    exact .other fun spelling listed => by simpa using List.find?_eq_none.mp unfound spelling listed

/-- No name spells two systems. -/
theorem Named.unique {os' : Os} (named : Named name os) (named' : Named name os') : os = os' := by
  have distinct : ∀ spelling ∈ spellings, ∀ spelling' ∈ spellings,
      Text.sameIgnoringCase spelling.1 spelling'.1 = true → spelling.2 = spelling'.2 := by decide
  cases named with
  | known listed same =>
      cases named' with
      | known listed' same' =>
          refine distinct _ listed _ listed' ?_
          rw [Text.sameIgnoringCase, beq_iff_eq] at same same' ⊢
          exact same.symm.trans same'
      | other foreign => cases same.symm.trans (foreign _ listed)
  | other foreign =>
      cases named' with
      | known listed same => cases same.symm.trans (foreign _ listed)
      | other _ => rfl

theorem ofName_eq_iff : ofName name = os ↔ Named name os :=
  ⟨fun same => same ▸ named_ofName name, (named_ofName name).unique⟩

theorem parse_eq_ok_iff : parse text = .ok os ↔
    Text.trim text ≠ "" ∧ Named (Text.trim text) os := by
  rw [← ofName_eq_iff, parse]
  by_cases empty : Text.trim text = "" <;> simp [empty]

theorem parse_display (read : parse text = .ok os) : parse os.display = .ok os := by
  obtain ⟨some_name, named⟩ := parse_eq_ok_iff.mp read
  rw [parse_eq_ok_iff]
  cases named with
  | known listed _ =>
      have shown : ∀ spelling ∈ spellings, Text.trim spelling.2.display ≠ "" ∧
          ofName (Text.trim spelling.2.display) = spelling.2 := by decide
      obtain ⟨shown_name, known⟩ := shown _ listed
      exact ⟨shown_name, ofName_eq_iff.mp known⟩
  | other foreign =>
      rw [display, Text.trim_trim]
      exact ⟨some_name, .other foreign⟩

end Os

end PackageBuild
