import PackageBuild.World
import PackageBuild.Warning
/-!
# Outcomes of actions

An action is followed step by step: each step either goes on in the world it leaves or ends the
action with its failure. A property that relates the files before a step to the files after it is
kept by a whole action when every step keeps it, whether the action succeeds or not.
-/

namespace PackageBuild

/-- A value is computed in two steps exactly if both steps give one. -/
theorem bind_eq_ok_iff {ε α β : Type} {x : Except ε α} {f : α → Except ε β} {b : β} :
    (x >>= f) = .ok b ↔ ∃ a, x = .ok a ∧ f a = .ok b := by
  cases x with
  | error fault => simp [bind, Except.bind]
  | ok a => simp [bind, Except.bind]

/-- A value computed in two steps is refused if one of them refuses it. -/
theorem bind_eq_error_iff {ε α β : Type} {x : Except ε α} {f : α → Except ε β} {fault : ε} :
    (x >>= f) = .error fault ↔ x = .error fault ∨ ∃ a, x = .ok a ∧ f a = .error fault := by
  cases x with
  | error fault' => simp [bind, Except.bind]
  | ok a => simp [bind, Except.bind]

theorem map_eq_ok_iff {ε α β : Type} {x : Except ε α} {f : α → β} {b : β} :
    f <$> x = .ok b ↔ ∃ a, x = .ok a ∧ f a = b := by
  cases x <;> simp [Functor.map, Except.map]

theorem mapError_eq_ok_iff {ε ε' α : Type} {x : Except ε α} {f : ε → ε'} {a : α} :
    x.mapError f = .ok a ↔ x = .ok a := by
  cases x with
  | error inner => exact iff_of_false nofun nofun
  | ok b =>
      constructor
      · rintro ⟨⟩
        rfl
      · rintro ⟨⟩
        rfl

theorem mapError_eq_error_iff {ε ε' α : Type} {x : Except ε α} {f : ε → ε'} {fault : ε'} :
    x.mapError f = .error fault ↔ ∃ inner, x = .error inner ∧ f inner = fault := by
  cases x with
  | error inner =>
      change Except.error (f inner) = _ ↔ _
      simp
  | ok a => exact iff_of_false nofun nofun

namespace Action

variable {α β : Type} {world : World}

@[simp]
theorem outcome_pure (a : α) : (pure a : Action α).outcome world = (.ok a, world) := rfl

theorem outcome_bind (action : Action α) (next : α → Action β) :
    (action >>= next).outcome world =
      match action.outcome world with
      | (.ok a, world') => (next a).outcome world'
      | (.error failure, world') => (.error failure, world') := by
  change (ExceptT.bindCont next (action.run world).1).run (action.run world).2 = _
  unfold outcome
  rcases action.run world with ⟨_ | a, world'⟩ <;> rfl

/-- The outcome of two steps whose first succeeds is that of the second. -/
theorem outcome_bind_ok {action : Action α} {next : α → Action β} {a : α} {world' : World}
    (first : action.outcome world = (.ok a, world')) :
    (action >>= next).outcome world = (next a).outcome world' := by
  rw [outcome_bind, first]

/-- Two steps end with the failure of the first. -/
theorem outcome_bind_error {action : Action α} {next : α → Action β} {failure : Failure}
    {world' : World} (first : action.outcome world = (.error failure, world')) :
    (action >>= next).outcome world = (.error failure, world') := by
  rw [outcome_bind, first]

theorem outcome_bind_pure_world (action : Action α) (f : α → β) :
    ((action >>= fun a => pure (f a)).outcome world).2 = (action.outcome world).2 := by
  rw [outcome_bind]
  rcases action.outcome world with ⟨_ | a, world'⟩ <;> rfl

/-- Two steps succeed exactly if the first does and the second succeeds after it. -/
theorem outcome_bind_eq_ok_iff {action : Action α} {next : α → Action β} {b : β} {last : World} :
    (action >>= next).outcome world = (.ok b, last) ↔
      ∃ a middle, action.outcome world = (.ok a, middle) ∧
        (next a).outcome middle = (.ok b, last) := by
  rw [outcome_bind]
  rcases action.outcome world with ⟨failure | a, middle⟩
  · simp
  · constructor
    · intro rest
      exact ⟨a, middle, rfl, rest⟩
    · rintro ⟨a', middle', first, rest⟩
      cases first
      exact rest

/-- Two steps do the same as two others when the first ones do and the second ones do after them. -/
theorem outcome_bind_congr {action action' : Action α} {next next' : α → Action β}
    (first : action.outcome world = action'.outcome world)
    (rest : ∀ a world', action'.outcome world = (.ok a, world') →
      (next a).outcome world' = (next' a).outcome world') :
    (action >>= next).outcome world = (action' >>= next').outcome world := by
  rw [outcome_bind, outcome_bind, first]
  rcases outcome : action'.outcome world with ⟨failure | a, world'⟩
  · rfl
  · exact rest a world' outcome

/-- Steps for a list that succeed do so up to the last one and then for that one. -/
theorem outcome_foldlM_concat_eq_ok_iff {act : β → α → Action β} {items : List α} {item : α}
    {start b : β} {last : World} :
    ((items ++ [item]).foldlM act start).outcome world = (.ok b, last) ↔
      ∃ b' middle, (items.foldlM act start).outcome world = (.ok b', middle) ∧
        (act b' item).outcome middle = (.ok b, last) := by
  rw [List.foldlM_append, outcome_bind_eq_ok_iff]
  simp only [List.foldlM_cons, List.foldlM_nil, bind_pure]

@[simp]
theorem outcome_fail (cause : Cause) :
    (fail cause : Action α).outcome world = (.error (.of cause), world) := rfl

@[simp]
theorem outcome_ofExcept (result : Except Failure α) :
    (ofExcept result).outcome world = (result, world) := rfl

@[simp]
theorem outcome_look (f : FileTree → α) :
    (look f).outcome world = (.ok (f world.tree), world) := rfl

@[simp]
theorem outcome_tell (notice : Notice) :
    (tell notice).outcome world =
      (.ok (), { world with notices := world.notices ++ [notice] }) := rfl

@[simp]
theorem outcome_warn (warning : Warning) :
    (warn warning).outcome world =
      (.ok (), { world with notices := world.notices ++ [.warning warning] }) := rfl

theorem outcome_forM_warn (warnings : List Warning) (world : World) :
    ∃ told, (warnings.forM warn).outcome world =
      (.ok (), { world with notices := world.notices ++ told }) := by
  induction warnings generalizing world with
  | nil => exact ⟨[], by rw [List.append_nil]; rfl⟩
  | cons warning warnings induction =>
      obtain ⟨told, rest⟩ :=
        induction { world with notices := world.notices ++ [.warning warning] }
      refine ⟨.warning warning :: told, ?_⟩
      rw [List.forM, outcome_bind_ok (outcome_warn warning), rest, List.append_assoc]
      rfl

theorem outcome_change (context : String) (f : FileTree → FileTree.Changed) :
    (change context f).outcome world =
      ((f world.tree).1.mapError fun e => (Failure.of (.os e)).within context,
        { world with tree := (f world.tree).2 }) := by
  change change context f world = _
  unfold change
  rcases f world.tree with ⟨_ | ⟨⟩, tree⟩ <;> rfl

/-- A change that succeeds leaves what the system made of the files. -/
theorem outcome_change_eq_ok {context : String} {f : FileTree → FileTree.Changed} {last : World}
    (changed : (change context f).outcome world = (.ok (), last)) :
    f world.tree = (.ok (), last.tree) := by
  rw [outcome_change] at changed
  obtain ⟨result, rfl⟩ := Prod.mk.inj changed
  rcases done : f world.tree with ⟨_ | ⟨⟩, tree⟩
  · rw [done] at result
    cases result
  · rfl

theorem outcome_within (context : String) (action : Action α) :
    (action.within context).outcome world =
      ((action.outcome world).1.mapError (Failure.within context), (action.outcome world).2) := by
  change within context action world = _
  unfold within outcome
  rcases action.run world with ⟨_ | a, world'⟩ <;> rfl

/-! ## Properties that go step by step -/

/-- Whether a property holds of the steps that leave the files alone, and of two steps when it holds
of the first and, for every value that this can give, of the second. -/
structure Closed (P : (α : Type) → Action α → Prop) : Prop where
  of_pure : ∀ {α : Type} (a : α), P α (pure a)
  of_look : ∀ {α : Type} (f : FileTree → α), P α (look f)
  of_warn : ∀ warning : Warning, P Unit (warn warning)
  of_bind : ∀ {α β : Type} {action : Action α} {next : α → Action β}, P α action →
    (∀ a, (∃ world world', action.outcome world = (.ok a, world')) → P β (next a)) →
      P β (action >>= next)

namespace Closed

variable {P : (α : Type) → Action α → Prop}

theorem of_foldlM (closed : Closed P) {act : β → α → Action β} (items : List α)
    (each : ∀ b, ∀ a ∈ items, P β (act b a)) (start : β) : P β (items.foldlM act start) := by
  induction items generalizing start with
  | nil => exact closed.of_pure start
  | cons item items induction =>
      rw [List.foldlM_cons]
      apply closed.of_bind (each start item List.mem_cons_self)
      intro b _
      exact induction (fun b a member => each b a (List.mem_cons_of_mem item member)) b

theorem of_forM (closed : Closed P) {act : α → Action PUnit} (items : List α)
    (each : ∀ a ∈ items, P PUnit (act a)) : P PUnit (items.forM act) := by
  induction items with
  | nil => exact closed.of_pure ()
  | cons item items induction =>
      apply closed.of_bind (each item List.mem_cons_self)
      intro _ _
      exact induction fun a member => each a (List.mem_cons_of_mem item member)

theorem of_copyFile (closed : Closed P) {src dst : Path}
    (parents : ∀ parent, dst.parent? = some parent → P Unit (makeDirectories parent))
    (copied : P Unit (change ("failed to copy " ++ src.text ++ " to " ++ dst.text)
      (·.copyContent src dst))) : P Unit (copyFile src dst) := by
  rw [copyFile]
  split
  · rename_i parent is_parent
    exact closed.of_bind (parents parent is_parent) fun _ _ => copied
  · exact copied

end Closed

/-! ## Relations that every step keeps -/

/-- Whether the files before and after every run of an action are related. -/
def Keeps (R : FileTree → FileTree → Prop) (action : Action α) : Prop :=
  ∀ world, R world.tree (action.outcome world).2.tree

section Keeps

variable {R : FileTree → FileTree → Prop}

theorem closed_keeps (refl : ∀ t, R t t) (trans : ∀ t t' t'', R t t' → R t' t'' → R t t'') :
    Closed fun _ => Keeps R where
  of_pure _ world := refl world.tree
  of_look _ world := refl world.tree
  of_warn _ world := refl world.tree
  of_bind {_ _ action _} first rest world := by
    have step := first world
    rcases outcome : action.outcome world with ⟨failure | a, middle⟩
    · rw [outcome_bind_error outcome]
      rwa [outcome] at step
    · rw [outcome_bind_ok outcome]
      rw [outcome] at step
      exact trans _ _ _ step (rest a ⟨world, middle, outcome⟩ middle)

theorem closed_preserves {holds : FileTree → Prop} :
    Closed fun _ => Keeps fun t t' => holds t → holds t' :=
  closed_keeps (fun _ => id) fun _ _ _ first second => second ∘ first

/-- Loops do the same when their steps do, as long as something holds of the files that the steps
keep. -/
theorem outcome_foldlM_congr {holds : FileTree → Prop} {act act' : β → α → Action β}
    {items : List α}
    (same : ∀ b, ∀ a ∈ items, ∀ world, holds world.tree →
      (act b a).outcome world = (act' b a).outcome world)
    (kept : ∀ b, ∀ a ∈ items, Keeps (fun t t' => holds t → holds t') (act' b a))
    {world : World} (start : holds world.tree) (b : β) :
    (items.foldlM act b).outcome world = (items.foldlM act' b).outcome world := by
  induction items generalizing b world with
  | nil => rfl
  | cons item items induction =>
      rw [List.foldlM_cons, List.foldlM_cons]
      apply outcome_bind_congr (same b item List.mem_cons_self world start)
      intro b' world' outcome
      have still := kept b item List.mem_cons_self world start
      rw [outcome] at still
      exact induction (fun b a member => same b a (List.mem_cons_of_mem item member))
        (fun b a member => kept b a (List.mem_cons_of_mem item member)) still b'

theorem keeps_fail (refl : ∀ t, R t t) (cause : Cause) : Keeps R (fail cause : Action α) :=
  fun world => refl world.tree

theorem keeps_change (context : String) {f : FileTree → FileTree.Changed}
    (changes : ∀ t, R t (f t).2) : Keeps R (change context f) := by
  intro world
  rw [outcome_change]
  exact changes world.tree

end Keeps

/-! ## Actions on files alone -/

/-- Whether what an action does depends on the files alone: it changes them, tells more, runs no
commands, and fails for reasons of some kinds only. -/
def FilesOnly (faults : Cause → Prop) (action : Action α) : Prop :=
  ∀ t, ∃ result t' told, (∀ failure, result = .error failure → faults failure.cause) ∧
    ∀ world : World, world.tree = t → action.outcome world =
      (result, { world with tree := t', notices := world.notices ++ told })

section FilesOnly

variable {faults : Cause → Prop}

theorem FilesOnly.commands {action : Action α} (only : FilesOnly faults action) (world : World) :
    (action.outcome world).2.commands = world.commands := by
  obtain ⟨_, _, _, -, outcome⟩ := only world.tree
  rw [outcome world rfl]

theorem FilesOnly.exists_told {action : Action α} (only : FilesOnly faults action) (world : World) :
    ∃ told, (action.outcome world).2.notices = world.notices ++ told := by
  obtain ⟨_, _, told, -, outcome⟩ := only world.tree
  exact ⟨told, by rw [outcome world rfl]⟩

theorem FilesOnly.faults_cause {action : Action α} (only : FilesOnly faults action)
    {failure : Failure} (failed : (action.outcome world).1 = .error failure) :
    faults failure.cause := by
  obtain ⟨_, _, _, kinds, outcome⟩ := only world.tree
  rw [outcome world rfl] at failed
  exact kinds failure failed

theorem FilesOnly.outcome_again {action : Action α} (only : FilesOnly faults action)
    {result : Except Failure α} {last : World} (outcome : action.outcome world = (result, last))
    {again : World} (same : again.tree = world.tree) :
    ∃ last', action.outcome again = (result, last') ∧ last'.tree = last.tree := by
  obtain ⟨_, _, _, -, alike⟩ := only world.tree
  obtain ⟨rfl, rfl⟩ := Prod.mk.inj (outcome.symm.trans (alike world rfl))
  exact ⟨_, alike again same, rfl⟩

/-- What fails for some reasons only fails for no others. -/
theorem FilesOnly.weaken {faults' : Cause → Prop} {action : Action α}
    (only : FilesOnly faults action) (kinds : ∀ cause, faults cause → faults' cause) :
    FilesOnly faults' action := by
  intro t
  obtain ⟨result, t', told, kind, outcome⟩ := only t
  exact ⟨result, t', told, fun failure failed => kinds _ (kind failure failed), outcome⟩

theorem filesOnly_fail {cause : Cause} (kind : faults cause) :
    FilesOnly faults (fail cause : Action α) := by
  intro t
  refine ⟨.error (.of cause), t, [], ?_, ?_⟩
  · rintro failure ⟨⟩
    exact kind
  · rintro world rfl
    rw [outcome_fail, List.append_nil]

theorem filesOnly_change (context : String) (f : FileTree → FileTree.Changed)
    (kind : ∀ e, faults (.os e)) : FilesOnly faults (change context f) := by
  intro t
  refine ⟨(f t).1.mapError fun e => (Failure.of (.os e)).within context, (f t).2, [], ?_, ?_⟩
  · intro failure failed
    cases result : (f t).1 with
    | ok done =>
        rw [result] at failed
        cases failed
    | error e =>
        rw [result] at failed
        cases failed
        exact kind e
  · rintro world rfl
    rw [outcome_change, List.append_nil]

theorem filesOnly_within (context : String) {action : Action α}
    (only : FilesOnly faults action) : FilesOnly faults (action.within context) := by
  intro t
  obtain ⟨result, t', told, kinds, outcome⟩ := only t
  refine ⟨result.mapError (Failure.within context), t', told, ?_, ?_⟩
  · intro failure failed
    cases result with
    | ok a => cases failed
    | error inner =>
        cases failed
        exact kinds inner rfl
  · intro world files
    rw [outcome_within, outcome world files]

theorem closed_filesOnly : Closed fun _ => FilesOnly faults where
  of_pure a t := by
    refine ⟨.ok a, t, [], by simp, ?_⟩
    rintro world rfl
    rw [outcome_pure, List.append_nil]
  of_look f t := by
    refine ⟨.ok (f t), t, [], by simp, ?_⟩
    rintro world rfl
    rw [outcome_look, List.append_nil]
  of_warn warning t := by
    refine ⟨.ok (), t, [.warning warning], by simp, ?_⟩
    rintro world rfl
    exact outcome_warn warning
  of_bind first rest t := by
    obtain ⟨result, middle, told, kinds, outcome⟩ := first t
    cases result with
    | error failure =>
        refine ⟨.error failure, middle, told, ?_, ?_⟩
        · rintro _ ⟨⟩
          exact kinds failure rfl
        · intro world files
          exact outcome_bind_error (outcome world files)
    | ok a =>
        obtain ⟨result, t', told', kinds', outcome'⟩ :=
          rest a ⟨{ tree := t }, _, outcome _ rfl⟩ middle
        refine ⟨result, t', told ++ told', kinds', fun world files => ?_⟩
        rw [outcome_bind_ok (outcome world files), outcome' _ rfl, List.append_assoc]

end FilesOnly

end Action
end PackageBuild
