import PackageBuild.CommandLine.Request
import PackageBuild.Proofs.Outcome
/-!
# Asking for a document

The word `--json` is never taken as the value of an argument: where it stands after a subcommand it
is the flag, and everywhere else it is refused. So a request to run a subcommand has the flag as
soon as the word is among those of the command line.
-/

namespace PackageBuild
namespace CommandLine

/-- The word that asks for a document. -/
def jsonWord : String := "--json"

theorem ofText_jsonWord : Word.ofText jsonWord = .long "json" := by decide

/-- Whether what reading comes to is good, or a refusal, or a request that runs nothing. -/
def Leads {α : Type} (good : α → Prop) : Except Interruption α → Prop
  | .ok a => good a
  | .error (.wrong _) => True
  | .error (.settled request) => ∀ subcommand given, request ≠ .run subcommand given

section Leads

variable {α β : Type} {good : α → Prop} {good' : β → Prop}

theorem leads_bind {x : Except Interruption α} {f : α → Except Interruption β}
    (first : Leads good x) (next : ∀ a, good a → Leads good' (f a)) : Leads good' (x >>= f) := by
  rcases x with (error | request) | a
  · trivial
  · exact first
  · exact next a first

theorem Leads.weaken {good' : α → Prop} {x : Except Interruption α} (leads : Leads good x)
    (weaker : ∀ a, good a → good' a) : Leads good' x := by
  rcases x with (error | request) | a
  · trivial
  · exact leads
  · exact weaker a leads

theorem leads_mapError {x : Except UsageError α} (all : ∀ a, x = .ok a → good a) :
    Leads good (x.mapError .wrong) := by
  cases x with
  | error error => trivial
  | ok a => exact all a rfl

end Leads

namespace Given

theorem eq_true_of_flagOnce {a : Argument} {known flag : Bool}
    (taken : flagOnce a known = .ok flag) : flag = true := by
  unfold flagOnce at taken
  split at taken
  · cases taken
  · exact (Except.ok.inj taken).symm

theorem json_addFlag {a : Argument} {g g' : Given} (added : g.addFlag a = .ok g')
    (asked : a = .json ∨ g.json = true) : g'.json = true := by
  cases a
  case json =>
    obtain ⟨flag, taken, done⟩ := bind_eq_ok_iff.mp added
    cases done
    exact eq_true_of_flagOnce taken
  case verbose | noPackage | strict =>
    obtain ⟨flag, -, done⟩ := bind_eq_ok_iff.mp added
    cases done
    simpa using asked
  all_goals
    cases added
    simpa using asked

theorem json_addValue {a : Argument} {value : String} {g g' : Given}
    (added : g.addValue a value = .ok g') : g'.json = g.json := by
  cases a
  case verbose | help | version | json | noPackage | strict =>
    cases added
    rfl
  all_goals
    obtain ⟨known, -, done⟩ := bind_eq_ok_iff.mp added
    cases done
    rfl

end Given

namespace Reading

/-- Whether the word for a document was read after a subcommand: as the flag, or, where only a
shell can follow, in its place. -/
def Asked (subcommand : Subcommand) (r : Reading) : Prop :=
  (subcommand ≠ .completions ∧ r.given.json = true) ∨ r.pending = some (.shell, some jsonWord)

variable {subcommand : Subcommand} {r : Reading}

theorem addValue_shell_jsonWord (g : Given) :
    ∃ error, g.addValue .shell jsonWord = .error error := by
  unfold Given.addValue Given.once
  cases g.shell with
  | none => exact ⟨_, rfl⟩
  | some shell => exact ⟨_, rfl⟩

/-- What is complete in the end has the flag. -/
theorem Asked.of_settle {given : Given} (asked : r.Asked subcommand)
    (settled : r.settle = .ok given) : subcommand ≠ .completions ∧ given.json = true := by
  rcases asked with ⟨other, json⟩ | shell
  · refine ⟨other, ?_⟩
    unfold settle at settled
    split at settled
    · cases settled
      exact json
    · cases settled
    · rw [Given.json_addValue settled]
      exact json
  · obtain ⟨error, refused⟩ := addValue_shell_jsonWord r.given
    simp [settle, shell, refused] at settled

section

variable (subcommand) (named : Option Subcommand)

theorem leads_takeFlag (a : Argument) :
    Leads (fun r' => (a = .json ∧ subcommand ≠ .completions) ∨ r.Asked subcommand →
      r'.Asked subcommand) (r.takeFlag named a) := by
  unfold takeFlag
  refine leads_bind (leads_mapError fun given settled => settled) fun given settled => ?_
  have flagged : Leads (fun r' : Reading => (a = .json ∧ subcommand ≠ .completions) ∨
      r.Asked subcommand → r'.Asked subcommand)
      (do return { given := ← (given.addFlag a).mapError .wrong }) := by
    refine leads_bind (leads_mapError fun given' added => added) fun given' added => ?_
    rintro (⟨rfl, other⟩ | asked)
    · exact Or.inl ⟨other, Given.json_addFlag added (Or.inl rfl)⟩
    · obtain ⟨other, json⟩ := asked.of_settle settled
      exact Or.inl ⟨other, Given.json_addFlag added (Or.inr json)⟩
  split
  · intro subcommand given same
    cases same
  · intro subcommand given same
    cases same
  · exact flagged

theorem leads_takeNamed (a : Argument) (attached : Option String) :
    Leads (fun r' => r.Asked subcommand → r'.Asked subcommand) (r.takeNamed a attached) := by
  unfold takeNamed
  refine leads_bind (leads_mapError fun given settled => settled) fun given settled => ?_
  cases attached with
  | none => exact fun asked => Or.inl (asked.of_settle settled)
  | some value =>
      refine leads_bind (leads_mapError fun given' added => added) fun given' added => ?_
      intro asked
      obtain ⟨other, json⟩ := asked.of_settle settled
      exact Or.inl ⟨other, by rw [Given.json_addValue added, json]⟩

theorem leads_takeLong (body : String) :
    Leads (fun r' => r.Asked subcommand → r'.Asked subcommand) (r.takeLong named body) := by
  unfold takeLong
  split
  rename_i name attached _
  split
  · trivial
  · rename_i a _
    split
    · exact leads_takeNamed subcommand a attached
    · split
      · trivial
      · exact (leads_takeFlag subcommand named a).weaken fun r' leads asked => leads (Or.inr asked)

theorem leads_takeShort (names : List Char) :
    Leads (fun r' => r.Asked subcommand → r'.Asked subcommand) (takeShort named names r) := by
  induction names generalizing r with
  | nil => exact id
  | cons c names induction =>
      rw [takeShort]
      split
      · trivial
      · rename_i a _
        split
        · exact leads_takeNamed subcommand a _
        · refine leads_bind (leads_takeFlag subcommand named a) fun r' first => ?_
          exact induction.weaken fun r'' rest asked => rest (first (Or.inr asked))

end

theorem leads_takeLong_json :
    Leads (fun r' => r'.Asked subcommand) (r.takeLong (some subcommand) "json") := by
  have flag (other : subcommand ≠ .completions) :
      Leads (fun r' => r'.Asked subcommand) (r.takeFlag (some subcommand) .json) :=
    (leads_takeFlag subcommand (some subcommand) .json).weaken fun r' leads =>
      leads (Or.inl ⟨rfl, other⟩)
  cases subcommand with
  | completions => trivial
  | inspect | build | package | info => exact flag (by decide)

theorem leads_takePositional (word : String) :
    Leads (fun r' => word = jsonWord ∨ r.Asked subcommand → r'.Asked subcommand)
      (r.takePositional subcommand word) := by
  unfold takePositional
  dsimp only
  split
  · rename_i free
    refine leads_bind (leads_mapError fun given settled => settled) fun given settled => ?_
    rintro (rfl | asked)
    · exact Or.inr rfl
    · exact Or.inl (asked.of_settle settled)
  · trivial

/-- Reading the words after a subcommand misses no word for a document. -/
theorem leads_readWords (words : List String) (named : Bool) :
    Leads (fun r' => jsonWord ∈ words ∨ r.Asked subcommand → r'.Asked subcommand)
      (readWords subcommand named words r) := by
  induction words generalizing named r with
  | nil => exact fun asked => asked.resolve_left List.not_mem_nil
  | cons word rest induction =>
      have onward {x : Except Interruption Reading} {named : Bool}
          (step : Leads (fun r' => word = jsonWord ∨ r.Asked subcommand → r'.Asked subcommand) x) :
          Leads (fun r' => jsonWord ∈ word :: rest ∨ r.Asked subcommand → r'.Asked subcommand)
            (x >>= readWords subcommand named rest) := by
        refine leads_bind step fun r' first => (induction named).weaken fun r'' last asked => ?_
        rcases asked with member | asked
        · rcases List.mem_cons.mp member with same | later
          · exact last (Or.inr (first (Or.inl same.symm)))
          · exact last (Or.inl later)
        · exact last (Or.inr (first (Or.inr asked)))
      have other (kind : Word.ofText word ≠ .long "json") : word ≠ jsonWord := by
        rintro rfl
        exact kind ofText_jsonWord
      rw [readWords]
      split
      · split
        · rename_i ends
          exact onward (x := .ok r) fun asked => asked.resolve_left (other (by simp [ends]))
        · rename_i body long
          refine onward ?_
          by_cases same : body = "json"
          · subst same
            exact leads_takeLong_json.weaken fun r' asked _ => asked
          · exact (leads_takeLong subcommand _ body).weaken fun r' kept asked =>
              kept (asked.resolve_left (other (by simp [long, same])))
        · rename_i names short
          exact onward ((leads_takeShort subcommand _ names).weaken fun r' kept asked =>
            kept (asked.resolve_left (other (by simp [short]))))
        · rename_i plain
          split
          · rename_i a waits
            refine onward (x := .ok _) fun asked => ?_
            rcases asked.resolve_left (other (by simp [plain])) with flag | shell
            · exact Or.inl flag
            · obtain ⟨given, pending⟩ := r
              cases shell
              cases waits
          · exact onward (leads_takePositional word)
      · exact onward (leads_takePositional word)

end Reading

theorem leads_readSubcommand (subcommand : Subcommand) (words : List String) :
    Leads (fun given => jsonWord ∈ words → subcommand ≠ .completions ∧ given.json = true)
      (readSubcommand subcommand words) := by
  unfold readSubcommand
  refine leads_bind (Reading.leads_readWords words true) fun r read => ?_
  refine leads_bind (leads_mapError fun given settled => settled) fun given settled => ?_
  have asked (member : jsonWord ∈ words) : subcommand ≠ .completions ∧ given.json = true :=
    (read (Or.inl member)).of_settle settled
  split
  · trivial
  · exact asked

theorem helpFor_ne_run {named : Option Subcommand} {words : List String} {request : Request}
    (helps : helpFor named words = .ok request) (subcommand : Subcommand) (given : Given) :
    request ≠ .run subcommand given := by
  induction words generalizing named with
  | nil =>
      cases helps
      simp
  | cons word rest induction =>
      unfold helpFor at helps
      split at helps
      · exact induction helps
      · split at helps
        · cases helps
          simp
        · cases helps
      · cases helps

theorem readProgram_jsonWord (named : Bool) (rest : List String) (r : Reading) :
    ∃ error, readProgram named (jsonWord :: rest) r = .error (.wrong error) := by
  have no_subcommand : Subcommand.ofWord? jsonWord = none := by decide
  have refused : r.takeLong none "json" = .error (.wrong (.unexpectedArgument "--json")) := by
    rfl
  unfold readProgram
  cases named with
  | false => exact ⟨_, rfl⟩
  | true =>
      simp only [no_subcommand, ofText_jsonWord, refused]
      cases r.waiting with
      | none => exact ⟨_, rfl⟩
      | some a => exact ⟨_, rfl⟩

theorem leads_readProgram (words : List String) (named : Bool) (r : Reading) :
    Leads (fun request => ∀ subcommand given, request = .run subcommand given →
      jsonWord ∈ words → subcommand ≠ .completions ∧ given.json = true)
      (readProgram named words r) := by
  induction words generalizing named r with
  | nil =>
      unfold readProgram
      exact leads_bind (leads_mapError fun given settled => settled) fun given _ => trivial
  | cons word rest induction =>
      by_cases json : word = jsonWord
      · subst json
        obtain ⟨error, refused⟩ := readProgram_jsonWord named rest r
        rw [refused]
        trivial
      · have onward (named : Bool) (r' : Reading) :
            Leads (fun request => ∀ subcommand given, request = .run subcommand given →
              jsonWord ∈ word :: rest → subcommand ≠ .completions ∧ given.json = true)
              (readProgram named rest r') :=
          (induction named r').weaken fun request leads subcommand given runs asked =>
            leads subcommand given runs ((List.mem_cons.mp asked).resolve_left (Ne.symm json))
        unfold readProgram
        dsimp only
        split
        · trivial
        · split
          · rename_i found
            refine leads_bind (leads_readSubcommand _ rest) fun given read => ?_
            refine leads_bind (leads_mapError fun outer settled => settled) fun outer _ => ?_
            intro subcommand given' runs asked
            cases runs
            exact read ((List.mem_cons.mp asked).resolve_left (Ne.symm json))
          · -- No subcommand has come yet, so any will do for what the steps say about it.
            split
            · exact onward false r
            · exact leads_bind (Reading.leads_takeLong .inspect _ _) fun r' _ => onward true r'
            · exact leads_bind (Reading.leads_takeShort .inspect _ _) fun r' _ => onward true r'
            · split
              · exact onward true _
              · split
                · split
                  · rename_i helps
                    exact fun subcommand given => helpFor_ne_run helps subcommand given
                  · trivial
                · trivial

/-- A request that runs a subcommand for words with the one that asks for a document is one for a
document, and the subcommand is one that has them. -/
theorem json_of_parse {words : List String} {subcommand : Subcommand} {given : Given}
    (parsed : Request.parse words = .ok (.run subcommand given)) (asked : jsonWord ∈ words) :
    subcommand ≠ .completions ∧ given.json = true := by
  have leads := leads_readProgram words true {}
  unfold Request.parse at parsed
  rcases read : readProgram true words {} with (error | request) | request
  · simp [read] at parsed
  · rw [read] at parsed leads
    cases parsed
    exact absurd rfl (leads subcommand given)
  · rw [read] at parsed leads
    cases parsed
    exact leads subcommand given rfl asked

end CommandLine
end PackageBuild
