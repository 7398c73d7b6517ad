import PackageBuild.Proofs.FileTree.Resolution
/-!
# Growing trees

Making directories never changes what is already there, and makes nothing but directories at which
the path or one of its parents arrives. All this holds whatever links there are: a path that leads
somewhere leads there in every tree with more directories.
-/

namespace PackageBuild

namespace Path

/-- The paths on the way to a path: it and its parents. -/
inductive OnWay (p : Path) : Path → Prop
  | self : OnWay p p
  | parent {q r : Path} : OnWay p q → q.parent? = some r → OnWay p r

theorem OnWay.of_parent {p q r : Path} (is_parent : p.parent? = some q) (on_way : q.OnWay r) :
    p.OnWay r := by
  induction on_way with
  | self => exact .parent .self is_parent
  | parent _ above induction => exact .parent induction above

/-- A path on the way has the first components only. -/
theorem OnWay.components {p q : Path} (on_way : p.OnWay q) : q.components <+: p.components := by
  induction on_way with
  | self => exact List.prefix_rfl
  | parent _ above induction =>
      rw [components_parent? above]
      exact (List.dropLast_prefix _).trans induction

end Path

namespace FileTree

variable {t t' : FileTree} {l k : Location} {p : Path}

/-! ## Slashes at the end -/

private theorem pieces_append_slashes (front : List Char) (n : Nat) :
    Text.pieces '/' (String.ofList (front ++ List.replicate n '/')) =
      Text.pieces '/' (String.ofList front) ++ List.replicate n "" := by
  induction n with
  | zero => simp
  | succ n induction =>
      have text : String.ofList (front ++ List.replicate (n + 1) '/') =
          String.ofList (front ++ List.replicate n '/') ++ "/" ++ "" := by
        rw [← String.toList_inj]
        simp [List.replicate_succ']
      rw [text, Text.pieces_append_slash, induction, List.replicate_succ', List.append_assoc]
      rfl

theorem steps_withoutEndSlash (p : Path) :
    ∃ n, p.steps = (withoutEndSlash p).steps ++ List.replicate n .current := by
  rw [withoutEndSlash]
  split
  · exact ⟨0, by simp⟩
  · rename_i some_char
    generalize kept_eq : (p.text.toList.reverse.dropWhile (· == '/')).reverse = kept at some_char
    obtain ⟨n, text⟩ : ∃ n, p.text = String.ofList (kept ++ List.replicate n '/') := by
      refine ⟨(p.text.toList.rtakeWhile (· == '/')).length, ?_⟩
      have slashes : p.text.toList.rtakeWhile (· == '/') =
          List.replicate (p.text.toList.rtakeWhile (· == '/')).length '/' := by
        rw [List.eq_replicate_iff]
        exact ⟨rfl, fun c member => by simpa using List.mem_rtakeWhile_imp member⟩
      rw [← slashes, ← String.toList_inj, String.toList_ofList, ← kept_eq]
      exact List.rdropWhile_append_rtakeWhile.symm
    refine ⟨n, ?_⟩
    have proper : Text.pieces '/' (String.ofList kept) ≠ [""] := by
      intro single
      have joined := Text.join_pieces (String.ofList kept)
      rw [single, Text.join, String.intercalate_singleton] at joined
      have chars := congrArg String.toList joined.symm
      rw [String.toList_ofList] at chars
      simp [chars] at some_char
    rw [Path.steps, Path.steps, Path.tokens_eq_tokensOf, Path.tokens_eq_tokensOf, text,
      pieces_append_slashes, Path.tokensOf_append (Text.pieces_ne_nil _) proper, List.map_append,
      List.map_replicate, List.map_replicate]
    rfl

theorem text_withoutEndSlash_ne_empty (some_text : p.text ≠ "") :
    (withoutEndSlash p).text ≠ "" := by
  rw [withoutEndSlash]
  split
  · exact some_text
  · rename_i some_char
    intro empty
    have chars := congrArg String.toList empty
    rw [String.toList_ofList] at chars
    simp [chars] at some_char

theorem withoutEndSlash_of_open (no_slash : p.endsInSlash = false) : withoutEndSlash p = p := by
  have kept : (p.text.toList.reverse.dropWhile (· == '/')).reverse = p.text.toList := by
    apply List.rdropWhile_eq_self_iff.mpr
    intro some_char slash
    rw [Path.endsInSlash, List.getLast?_eq_some_getLast some_char] at no_slash
    simp_all
  rw [withoutEndSlash]
  simp only [kept, String.ofList_toList]
  split <;> rfl

/-! ## Growth -/

/-- Whether one tree is another with more directories. -/
structure Grows (t t' : FileTree) : Prop where
  /-- Relative paths start where they did. -/
  here : t'.here = t.here
  /-- All that is there stays. -/
  kept : ∀ {k e}, t.lookup? k = some e → t'.lookup? k = some e
  /-- Only directories are new. -/
  added : ∀ {k e}, t'.lookup? k = some e → t.lookup? k = some e ∨ e = .directory

namespace Grows

theorem refl (t : FileTree) : Grows t t := ⟨rfl, id, Or.inl⟩

theorem trans {t'' : FileTree} (first : Grows t t') (second : Grows t' t'') : Grows t t'' where
  here := second.here.trans first.here
  kept found := second.kept (first.kept found)
  added found := by
    rcases second.added found with found | directory
    · exact first.added found
    · exact Or.inr directory

theorem linkFree (grows : Grows t t') (free : t.LinkFree) : t'.LinkFree :=
  free.of_lookup? fun _ _ found => (grows.added found).imp_right Or.inl

theorem opens (grows : Grows t t') (opens : t.Opens p l) : t'.Opens p l :=
  opens.mono grows.here fun _ => grows.kept

section Following

variable {jump jump' : Location → Path → Except OsError Location} {follow : Bool}

/-- A step leads where it did: nothing has become a link, and links lead where they did. -/
theorem takeStep (grows : Grows t t')
    (jumps : ∀ {l target k}, jump l target = .ok k → jump' l target = .ok k) {step : Component}
    (taken : t.takeStep jump follow l step = .ok k) : t'.takeStep jump' follow l step = .ok k := by
  cases step with
  | root => exact taken
  | current | parent =>
      rcases there : t.lookup? l with _ | ⟨_ | _ | _⟩ <;>
        simp only [FileTree.takeStep, there, reduceCtorEq] at taken
      simpa only [FileTree.takeStep, grows.kept there] using taken
  | normal name =>
      rcases there : t.lookup? l with _ | ⟨_ | _ | _⟩ <;>
        simp only [FileTree.takeStep, there, reduceCtorEq] at taken
      simp only [FileTree.takeStep, grows.kept there]
      cases next : t.lookup? (l ++ [name]) with
      | some e =>
          rw [next] at taken
          rw [grows.kept next]
          cases e with
          | link target =>
              cases follow with
              | true => exact jumps taken
              | false => exact taken
          | _ => exact taken
      | none =>
          rw [next] at taken
          cases next' : t'.lookup? (l ++ [name]) with
          | none => exact taken
          | some e =>
              rcases grows.added next' with before | rfl
              · exact absurd (next.symm.trans before) (by simp)
              · exact taken

theorem walkSteps (grows : Grows t t')
    (jumps : ∀ {l target k}, jump l target = .ok k → jump' l target = .ok k)
    {steps : List Component} (walked : t.walkSteps jump follow l steps = .ok k) :
    t'.walkSteps jump' follow l steps = .ok k := by
  induction steps generalizing l with
  | nil => exact walked
  | cons step rest induction =>
      rw [FileTree.walkSteps] at walked ⊢
      split at walked
      · rename_i middle taken
        rw [grows.takeStep jumps taken]
        exact induction walked
      · exact absurd walked (by simp)

end Following

theorem locateFrom (grows : Grows t t') {follow : Bool} {links : Nat}
    (located : t.locateFrom follow links l p = .ok k) :
    t'.locateFrom follow links l p = .ok k := by
  induction links generalizing follow l p k with
  | zero => exact absurd located (by simp [FileTree.locateFrom])
  | succ links induction =>
      rw [FileTree.locateFrom] at located ⊢
      split
      · rename_i empty
        rw [if_pos empty] at located
        exact absurd located (by simp)
      · rename_i some_text
        rw [if_neg some_text] at located
        exact grows.walkSteps induction located

/-- What is found at a path is still found there. -/
theorem find {e : Entry} (grows : Grows t t') (found : t.find p = .ok (l, e)) :
    t'.find p = .ok (l, e) := by
  cases located : t.locate p with
  | error fault => simp [FileTree.find, located] at found
  | ok k =>
      have located' : t'.locate p = .ok k := by
        rw [locate, grows.here]
        exact grows.locateFrom located
      cases there : t.lookup? k with
      | none => simp [FileTree.find, located, there] at found
      | some e' =>
          simp only [FileTree.find, located, there] at found
          simp only [FileTree.find, located', grows.kept there, found]

end Grows

theorem grows_place (parent : t.lookup? l.dropLast = some .directory)
    (vacant : t.lookup? l = none) (free : t.lookup? l ≠ some .directory) :
    Grows t (t.place l .directory parent free) where
  here := rfl
  kept {k e} found := by
    rw [lookup?_place, if_neg]
    · exact found
    · rintro rfl
      exact absurd (vacant.symm.trans found) (by simp)
  added {k e} found := by
    rw [lookup?_place] at found
    split at found
    · exact Or.inr (Option.some.inj found).symm
    · exact Or.inl found

/-! ## One directory -/

theorem put_eq_ok {e : Entry} (made : t.put l e = .ok t') :
    ∃ parent free, t' = t.place l e parent free := by
  rw [put] at made
  split at made
  · split at made
    · exact absurd made (by simp)
    · exact ⟨_, _, (Except.ok.inj made).symm⟩
  · exact absurd made (by simp)

theorem put_of_parent {e : Entry} (parent : t.lookup? l.dropLast = some .directory)
    (free : t.lookup? l ≠ some .directory) : t.put l e = .ok (t.place l e parent free) := by
  rw [put, dif_pos parent, dif_neg free]

/-- A step that leads to a directory without following a link leads there following links too. -/
theorem takeStep_follow {jump : Location → Path → Except OsError Location} {step : Component}
    (directory : t.lookup? k = some .directory) (taken : t.takeStep jump false l step = .ok k) :
    t.takeStep jump true l step = .ok k := by
  cases step with
  | normal name =>
      rcases there : t.lookup? l with _ | ⟨_ | _ | _⟩ <;>
        simp only [takeStep, there, reduceCtorEq] at taken ⊢
      cases next : t.lookup? (l ++ [name]) with
      | none => simpa [next] using taken
      | some e =>
          cases e with
          | link target =>
              have arrived : l ++ [name] = k := by simpa [next] using taken
              rw [arrived, directory] at next
              exact absurd next (by simp)
          | _ => simpa [next] using taken
  | root => exact taken
  | current | parent =>
      rcases there : t.lookup? l with _ | ⟨_ | _ | _⟩ <;>
        simpa only [takeStep, there] using taken

/-- Steps that lead to a directory without following a link at the end lead there following it and
asking for a directory as well. -/
theorem walkSteps_follow {jump : Location → Path → Except OsError Location}
    {steps : List Component} (directory : t.lookup? k = some .directory)
    (walked : t.walkSteps jump false l steps = .ok k) (n : Nat) :
    t.walkSteps jump true l (steps ++ List.replicate n .current) = .ok k := by
  induction steps generalizing l with
  | nil =>
      obtain rfl : l = k := Except.ok.inj walked
      induction n with
      | zero => rfl
      | succ n induction =>
          rw [List.nil_append] at induction ⊢
          rw [List.replicate_succ, walkSteps]
          simpa only [takeStep, directory] using induction
  | cons step rest induction =>
      rw [walkSteps] at walked
      rw [List.cons_append, walkSteps, Bool.true_or]
      split at walked
      · rename_i middle taken
        have follows : t.takeStep jump true l step = .ok middle := by
          cases rest with
          | nil =>
              obtain rfl : middle = k := Except.ok.inj walked
              exact takeStep_follow directory taken
          | cons next rest => exact taken
        rw [follows]
        exact induction walked
      · exact absurd walked (by simp)

theorem makeDirectory_eq_ok (made : t.makeDirectory p = .ok t') :
    ∃ l, Grows t t' ∧ t'.find p = .ok (l, .directory) ∧
      ∀ k, t'.lookup? k = if k = l then some .directory else t.lookup? k := by
  rw [makeDirectory] at made
  split at made
  · exact absurd made (by simp)
  · rename_i l named
    split at made
    · exact absurd made (by simp)
    · rename_i vacant
      obtain ⟨parent, other, rfl⟩ := put_eq_ok made
      have grows := grows_place parent vacant other
      have there : (t.place l .directory parent other).lookup? l = some .directory := by
        rw [lookup?_place, if_pos rfl]
      refine ⟨l, grows, ?_, lookup?_place parent other⟩
      have some_text : p.text ≠ "" := by
        intro empty
        rw [withoutEndSlash_of_open (by simp [Path.endsInSlash, empty])] at named
        simp [locateName, linkLimit, locateFrom, empty] at named
      obtain ⟨n, steps⟩ := steps_withoutEndSlash p
      have walked := grows.locateFrom named
      rw [linkLimit, locateFrom, if_neg (text_withoutEndSlash_ne_empty some_text)] at walked
      have located : (t.place l .directory parent other).locate p = .ok l := by
        rw [locate, linkLimit, locateFrom, if_neg some_text, steps]
        exact walkSteps_follow there walked n
      simp only [find, located, there]

/-! ## Missing parents -/

theorem isDir_iff : t.isDir p = true ↔ ∃ l, t.find p = .ok (l, .directory) := by
  rw [isDir]
  rcases t.find p with e | ⟨l, e⟩
  · simp [Except.toOption]
  · cases e <;> simp [Except.toOption, Entry.isDirectory]

/-- What making a directory with its parents leaves, whether it succeeds or not. -/
structure Paved (t : FileTree) (p : Path) (outcome : Changed) : Prop where
  /-- What was there stays. -/
  grows : Grows t outcome.2
  /-- New directories are the path or parents of it. -/
  on_way : ∀ k, outcome.2.lookup? k = some .directory → t.lookup? k = some .directory ∨
    ∃ q, p.OnWay q ∧ outcome.2.find q = .ok (k, .directory)
  /-- After a success there is a directory. -/
  found : outcome.1 = .ok () → p.components ≠ [] → ∃ l, outcome.2.find p = .ok (l, .directory)

namespace Paved

theorem unchanged (result : Except OsError Unit) (found : result = .ok () → p.components ≠ [] →
    t.isDir p = true) : Paved t p (result, t) where
  grows := .refl t
  on_way _ directory := Or.inl directory
  found success some_component := isDir_iff.mp (found success some_component)

theorem of_makeDirectory (made : t.makeDirectory p = .ok t') : Paved t p (.ok (), t') := by
  obtain ⟨l, grows, found, lookup⟩ := makeDirectory_eq_ok made
  refine ⟨grows, fun k directory => ?_, fun _ _ => ⟨l, found⟩⟩
  rw [lookup] at directory
  split at directory
  · rename_i arrived
    exact Or.inr ⟨p, .self, by rw [found, arrived]⟩
  · exact Or.inl directory

/-- What is made for the parent is on the way. -/
theorem of_parent {parent : Path} {result : Except OsError Unit} {fault : OsError}
    (is_parent : p.parent? = some parent) (paved : Paved t parent (result, t')) :
    Paved t p (.error fault, t') where
  grows := paved.grows
  on_way k directory := by
    rcases paved.on_way k directory with before | ⟨q, on_way, found⟩
    · exact Or.inl before
    · exact Or.inr ⟨q, .of_parent is_parent on_way, found⟩
  found success := absurd success (by simp)

theorem trans {result : Except OsError Unit} {outcome : Changed} (first : Paved t p (result, t'))
    (second : Paved t' p outcome) : Paved t p outcome where
  grows := first.grows.trans second.grows
  on_way k directory := by
    rcases second.on_way k directory with before | on_way
    · rcases first.on_way k before with before | ⟨q, on_way, found⟩
      · exact Or.inl before
      · exact Or.inr ⟨q, on_way, second.grows.find found⟩
    · exact Or.inr on_way
  found := second.found

end Paved

theorem makeParents_paved (fuel : Nat) (p : Path) : Paved t p (t.makeParents fuel p) := by
  induction fuel generalizing p with
  | zero => exact .unchanged _ (by simp)
  | succ fuel induction =>
      rw [makeParents]
      split
      · rename_i none_stands
        exact .unchanged _ fun _ some_component => absurd none_stands some_component
      · split
        · rename_i made
          exact .of_makeDirectory made
        · split
          · exact .unchanged _ (by simp)
          · rename_i parent is_parent
            have above := induction parent
            split
            · rename_i e t₁ first
              rw [first] at above
              exact .of_parent is_parent above
            · rename_i t₁ first
              rw [first] at above
              have rest := @Paved.of_parent t t₁ p parent _ .notFound is_parent above
              split
              · rename_i made
                exact rest.trans (.of_makeDirectory made)
              · split
                · rename_i there
                  exact rest.trans (.unchanged _ fun _ _ => there)
                · exact .of_parent is_parent above
        · split
          · rename_i there
            exact .unchanged _ fun _ _ => there
          · exact .unchanged _ (by simp)

/-- Making a directory with its missing parents. -/
theorem makeDirectories_paved (p : Path) : Paved t p (t.makeDirectories p) :=
  makeParents_paved _ p

end FileTree
end PackageBuild
