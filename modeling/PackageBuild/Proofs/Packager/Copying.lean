import PackageBuild.Proofs.Packager.Interleaving
/-!
# What one rule copies

Copied into an empty place, the files that a rule picks end up at their goals, with directories
above them and nothing else. No goal lies below another, so no copy is in the way of another, and
of several files with the same goal the last one stays.
-/

namespace PackageBuild

open FileTree

namespace CopyRule

/-! ## Filling an empty place -/

/-- What lies below a place after a file was put there, given what did before. -/
def stockOne (before : Location → Option Entry) (item : Location × Entry) (q : Location) :
    Option Entry :=
  if q = item.1 then some item.2 else if q <+: item.1 then some .directory else before q

/-- What lies below an empty place after files were put there one after the other. -/
def stock (items : List (Location × Entry)) : Location → Option Entry :=
  items.foldl stockOne fun _ => none

/-- Whether no item is to go below another. -/
def Apart (items : List (Location × Entry)) : Prop :=
  ∀ item ∈ items, ∀ other ∈ items, item.1 <+: other.1 → item.1 = other.1

variable {items : List (Location × Entry)} {item : Location × Entry} {q : Location} {e : Entry}

theorem stock_concat : stock (items ++ [item]) = stockOne (stock items) item := by
  rw [stock, List.foldl_concat, stock]

theorem mem_of_stock (found : stock items q = some e) :
    (q, e) ∈ items ∨ e = .directory ∧ ∃ item ∈ items, q <+: item.1 ∧ q ≠ item.1 := by
  induction items using List.reverseRecOn generalizing e with
  | nil => exact absurd found (by simp [stock])
  | append_singleton items last induction =>
      rw [stock_concat, stockOne] at found
      split at found
      · rename_i here
        left
        rw [here, ← Option.some.inj found]
        simp
      · rename_i other
        split at found
        · rename_i above
          exact Or.inr ⟨(Option.some.inj found).symm, last, by simp, above, other⟩
        · rcases induction found with member | ⟨directory, item, member, above⟩
          · exact Or.inl (List.mem_append_left _ member)
          · exact Or.inr ⟨directory, item, List.mem_append_left _ member, above⟩

theorem stock_of_mem (apart : Apart items) (member : item ∈ items) :
    ∃ e, (item.1, e) ∈ items ∧ stock items item.1 = some e := by
  induction items using List.reverseRecOn with
  | nil => exact absurd member (by simp)
  | append_singleton items last induction =>
      rw [stock_concat, stockOne]
      by_cases here : item.1 = last.1
      · exact ⟨last.2, by simp [here], by rw [if_pos here]⟩
      · have earlier : item ∈ items := by
          rcases List.mem_append.mp member with earlier | same
          · exact earlier
          · rw [List.mem_singleton.mp same] at here
            exact absurd rfl here
        have apart_earlier : Apart items := fun a in_items b in_items' =>
          apart a (List.mem_append_left _ in_items) b (List.mem_append_left _ in_items')
        obtain ⟨e, in_items, found⟩ := induction apart_earlier earlier
        have not_above : ¬item.1 <+: last.1 := fun above =>
          here (apart item member last (by simp) above)
        exact ⟨e, List.mem_append_left _ in_items, by rw [if_neg here, if_neg not_above, found]⟩

/-- What a tree has become by putting files below an empty place. -/
structure Filling (before after : FileTree) (place : Location)
    (items : List (Location × Entry)) : Prop where
  /-- Relative paths start where they did. -/
  here : after.here = before.here
  /-- There are no links. -/
  free : after.LinkFree
  /-- Nothing else has changed. -/
  outside : ∀ k, ¬place <+: k → after.lookup? k = before.lookup? k
  /-- The files are in place. -/
  inside : ∀ q, after.lookup? (place ++ q) = stock items q

namespace Filling

variable {before after : FileTree} {place : Location}

theorem start (free : before.LinkFree) (empty : ∀ q, before.lookup? (place ++ q) = none) :
    Filling before before place [] := ⟨rfl, free, fun _ _ => rfl, empty⟩

/-- What was there before is still there. -/
theorem kept (filling : Filling before after place items)
    (empty : ∀ q, before.lookup? (place ++ q) = none) {k : Location}
    (found : before.lookup? k = some e) : after.lookup? k = some e := by
  by_cases below : place <+: k
  · obtain ⟨q, rfl⟩ := below
    exact absurd ((empty q).symm.trans found) (by simp)
  · rw [filling.outside k below, found]

theorem find (filling : Filling before after place items) (free : before.LinkFree)
    (empty : ∀ q, before.lookup? (place ++ q) = none) {p : Path} {l : Location}
    (found : before.find p = .ok (l, e)) : after.find p = .ok (l, e) :=
  find_mono free filling.free filling.here (fun _ _ => filling.kept empty) found

theorem opens (filling : Filling before after place items)
    (empty : ∀ q, before.lookup? (place ++ q) = none) {p : Path} {l : Location}
    (opens : before.Opens p l) : after.Opens p l :=
  opens.mono filling.here fun _ => filling.kept empty

end Filling

/-! ## One copy -/

/-- What a rule picks is found at the path at which it is met. -/
theorem Picks.find_descend {rule : CopyRule} {t : FileTree} {guard : Option Location}
    {top way : Location} (free : t.LinkFree) (picked : rule.Picks t guard top way e) :
    t.find (rule.src.descend way) = .ok (top ++ way, e) := by
  obtain ⟨front, name, rfl, -⟩ := picked.selected
  have some_text := ((find_eq_ok_iff free).mp picked.source).1
  exact FileTree.find_descend free ((find_directory_iff_opens free some_text).mp picked.source)
    (by simp) picked.found

theorem stock_above_of_apart {goal : Location} (apart : Apart (items ++ [(goal, e)]))
    (above : q <+: goal) (other : q ≠ goal) :
    stock items q = none ∨ stock items q = some .directory := by
  cases found : stock items q with
  | none => exact Or.inl rfl
  | some e' =>
      rcases mem_of_stock found with member | ⟨rfl, -⟩
      · exact absurd (apart (q, e') (by simp [member]) (goal, e) (by simp) above) other
      · exact Or.inr rfl

theorem stock_ne_directory_of_apart {goal : Location} (apart : Apart (items ++ [(goal, e)]))
    (files : ∀ item ∈ items, item.2.isFile = true) : stock items goal ≠ some .directory := by
  intro found
  rcases mem_of_stock found with member | ⟨-, item, member, above, other⟩
  · exact absurd (files _ member) (by simp [Entry.isFile])
  · exact other (apart (goal, e) (by simp) item (by simp [member]) above)

namespace Filling

variable {before after t : FileTree} {l g : Location} {dir name : Name}

/-- Nothing is in the way of a new item. -/
theorem unblocked (filling : Filling before after (l ++ [dir]) items)
    (directory : after.lookup? l = some .directory)
    (apart : Apart (items ++ [(g ++ [name], e)])) : after.Unblocked l (dir :: g) := by
  intro above is_above
  cases above with
  | nil => exact Or.inr (by rw [List.append_nil, directory])
  | cons d q =>
      obtain ⟨rfl, shorter⟩ := List.cons_prefix_cons.mp is_above
      rw [List.append_cons, filling.inside]
      refine stock_above_of_apart apart (shorter.trans (List.prefix_append g [name])) ?_
      rintro rfl
      exact absurd shorter.length_le (by simp)

/-- A new item is put in place together with the directories above it. -/
theorem concat (filling : Filling before after (l ++ [dir]) items)
    (directory : after.lookup? l = some .directory) (here : t.here = after.here)
    (free : t.LinkFree) (lookup : ∀ k, t.lookup? k =
      if k = l ++ (dir :: g ++ [name]) then some e else after.laid l (dir :: g) k) :
    Filling before t (l ++ [dir]) (items ++ [(g ++ [name], e)]) where
  here := here.trans filling.here
  free := free
  outside k outside := by
    have other : k ≠ l ++ (dir :: g ++ [name]) := by
      rintro rfl
      exact outside ⟨g ++ [name], by simp⟩
    rw [lookup, if_neg other, laid, ← filling.outside k outside]
    split
    · rename_i on_way
      obtain ⟨⟨r, rfl⟩, shorter⟩ := on_way
      rw [List.prefix_append_right_inj] at shorter
      cases r with
      | nil => rw [List.append_nil, directory]
      | cons d q =>
          obtain ⟨rfl, -⟩ := List.cons_prefix_cons.mp shorter
          exact absurd ⟨q, by simp⟩ outside
    · rfl
  inside q := by
    have here_iff : l ++ [dir] ++ q = l ++ (dir :: g ++ [name]) ↔ q = g ++ [name] := by simp
    have above_iff : (l <+: l ++ [dir] ++ q ∧ l ++ [dir] ++ q <+: l ++ dir :: g) ↔ q <+: g := by
      rw [List.append_assoc, List.singleton_append, List.prefix_append_right_inj,
        List.cons_prefix_cons]
      simp
    rw [lookup, laid, stock_concat, stockOne, filling.inside]
    simp only [here_iff, above_iff]
    by_cases same : q = g ++ [name]
    · rw [if_pos same, if_pos same]
    · have shorter_iff : q <+: g ++ [name] ↔ q <+: g := by
        rw [List.prefix_concat_iff, or_iff_right same]
      simp only [if_neg same, shorter_iff]

end Filling

/-- A copy into the place of a rule puts one more item there. -/
theorem outcome_copyFile_of_picks {rule : CopyRule} {dir : Name} {packageDir : Path}
    {l top way : Location} {guard : Option Location} {before : FileTree} (world : World)
    (free : before.LinkFree) (opens : before.Opens packageDir l)
    (empty : ∀ q, before.lookup? (l ++ [dir] ++ q) = none)
    (filling : Filling before world.tree (l ++ [dir]) items)
    (files : ∀ item ∈ items, item.2.isFile = true)
    (picked : rule.Picks before guard top way e)
    (apart : Apart (items ++ [(rule.goal way, e)])) :
    ∃ t', (Action.copyFile (rule.src.descend way)
        (packageDir.descend (dir :: rule.goal way))).outcome world =
          (.ok (), { world with tree := t' }) ∧
      Filling before t' (l ++ [dir]) (items ++ [(rule.goal way, e)]) := by
  obtain ⟨g, name, goal⟩ : ∃ g name, rule.goal way = g ++ [name] := by
    obtain ⟨front, name, rfl, -⟩ := picked.selected
    exact ⟨_, name, rule.goal_concat front name⟩
  obtain ⟨content, executable, rfl⟩ := Entry.exists_eq_file picked.regular
  rw [goal] at apart ⊢
  have opens' := filling.opens empty opens
  have other : world.tree.lookup? (l ++ (dir :: g ++ [name])) ≠ some .directory := by
    rw [List.cons_append, List.append_cons, filling.inside]
    exact stock_ne_directory_of_apart apart files
  have elsewhere : top ++ way ≠ l ++ (dir :: g ++ [name]) := by
    intro same
    have found := picked.found
    rw [same, List.cons_append, List.append_cons, empty] at found
    exact absurd found (by simp)
  have found := filling.find free empty (picked.find_descend free)
  obtain ⟨t', copied, here, free', lookup⟩ := Action.outcome_copyFile_descend filling.free opens'
    (List.cons_ne_nil dir g) found (filling.unblocked opens'.2 apart) other elsewhere
  exact ⟨t', copied, filling.concat opens'.2 here free' lookup⟩

/-- No goal of what a rule picks lies below another. -/
theorem apart_of_picks {rule : CopyRule} {t : FileTree} {guard : Option Location} {top : Location}
    (picked : ∀ item ∈ items, ∃ way e, rule.Picks t guard top way e ∧ item = (rule.goal way, e)) :
    Apart items := by
  intro item member other member' above
  obtain ⟨way, e, picks, rfl⟩ := picked item member
  obtain ⟨way', e', picks', rfl⟩ := picked other member'
  dsimp only at above ⊢
  by_cases keeps : rule.keepPath = true
  · rw [goal, goal, if_pos keeps, if_pos keeps] at above ⊢
    by_contra different
    have directory : t.lookup? (top ++ way) = some .directory := by
      apply lookup?_above picks'.found
      · rwa [List.prefix_append_right_inj]
      · simpa using different
    have regular := picks.regular
    rw [Option.some.inj (picks.found.symm.trans directory)] at regular
    exact absurd regular (by simp [Entry.isFile])
  · obtain ⟨front, name, rfl, -⟩ := picks.selected
    obtain ⟨front', name', rfl, -⟩ := picks'.selected
    rw [goal_concat, goal_concat, if_neg keeps, if_neg keeps] at above ⊢
    simpa using above

/-! ## The whole walk -/

theorem mem_noteCopy_iff {copies : Packager.Copies} {dst src : Path}
    (plain : ∀ p ∈ copies.map (·.1), p.same dst = true → p = dst) (p : Path) :
    p ∈ (Packager.noteCopy dst src copies).map (·.1) ↔ p ∈ copies.map (·.1) ∨ p = dst := by
  induction copies with
  | nil => simp [Packager.noteCopy]
  | cons entry copies induction =>
      rw [List.map_cons, List.forall_mem_cons] at plain
      rw [Packager.noteCopy]
      split
      · rename_i same
        have listed : p = dst → p = entry.1 := fun last => last.trans (plain.1 same).symm
        rw [List.map_cons, List.map_cons, List.mem_cons]
        constructor
        · exact Or.inl
        · rintro (member | last)
          · exact member
          · exact Or.inl (listed last)
      · rw [List.map_cons, List.map_cons, List.mem_cons, List.mem_cons, induction plain.2, or_assoc]

/-- Where a rule puts something met, with what it is. -/
def placed (rule : CopyRule) (found : Found) : Location × Entry :=
  (rule.goal found.way, found.entry)

section Copying

variable {rule : CopyRule} {dir : Name} {packageDir : Path} {l top : Location}
  {guard : Option Location} {before : FileTree}

theorem target_of_picks (fills : rule.Fills dir) {way : Location}
    (picked : rule.Picks before guard top way e) :
    rule.target ⟨rule.src.descend way, way, e⟩ = (⟨""⟩ : Path).descend (dir :: rule.goal way) := by
  obtain ⟨front, name, rfl, -⟩ := picked.selected
  exact target_descend fills front (front ++ [name]) name e

theorem outcome_copyOne (fills : rule.Fills dir) (free : before.LinkFree)
    (opens : before.Opens packageDir l) (empty : ∀ q, before.lookup? (l ++ [dir] ++ q) = none)
    {world : World} (filling : Filling before world.tree (l ++ [dir]) items)
    (files : ∀ item ∈ items, item.2.isFile = true) {way : Location}
    (picked : rule.Picks before guard top way e)
    (apart : Apart (items ++ [(rule.goal way, e)])) (copies : Packager.Copies) :
    ∃ world', (Packager.copyOne rule packageDir copies
          ⟨rule.src.descend way, way, e⟩).outcome world =
        (.ok (Packager.noteCopy ((⟨""⟩ : Path).descend (dir :: rule.goal way))
          (rule.src.descend way) copies), world') ∧
      Filling before world'.tree (l ++ [dir]) (items ++ [(rule.goal way, e)]) := by
  rw [Packager.copyOne, target_of_picks fills picked]
  dsimp only
  rw [Path.join_descend_empty packageDir (List.cons_ne_nil _ _)]
  split
  · rename_i earlier replaced
    let warned : World := { world with notices := world.notices ++
      [.warning (.overwrites (rule.src.descend way) earlier
        ((⟨""⟩ : Path).descend (dir :: rule.goal way)))] }
    obtain ⟨t', copied, after⟩ :=
      outcome_copyFile_of_picks warned free opens empty filling files picked apart
    refine ⟨{ warned with tree := t' }, ?_, after⟩
    rw [Action.outcome_bind_ok (Action.outcome_warn _), Action.outcome_bind_ok copied]
    rfl
  · obtain ⟨t', copied, after⟩ :=
      outcome_copyFile_of_picks world free opens empty filling files picked apart
    refine ⟨{ world with tree := t' }, ?_, after⟩
    rw [Action.outcome_bind_ok copied]
    rfl

/-- All that a rule picks is copied into its place. -/
theorem outcome_copyAll (fills : rule.Fills dir) (free : before.LinkFree)
    (opens : before.Opens packageDir l) (empty : ∀ q, before.lookup? (l ++ [dir] ++ q) = none)
    {world : World} (filling : Filling before world.tree (l ++ [dir]) items)
    (earlier : ∀ item ∈ items, ∃ way e, rule.Picks before guard top way e ∧
      item = (rule.goal way, e)) {met : List Found}
    (picked : ∀ found ∈ met, ∃ way e, found = ⟨rule.src.descend way, way, e⟩ ∧
      rule.Picks before guard top way e)
    {copies : Packager.Copies}
    (plain : ∀ p ∈ copies.map (·.1), ∃ names, p = (⟨""⟩ : Path).descend names) :
    ∃ copies' world', (met.foldlM (Packager.copyOne rule packageDir) copies).outcome world =
        (.ok copies', world') ∧
      Filling before world'.tree (l ++ [dir]) (items ++ met.map rule.placed) ∧
      ∀ p, p ∈ copies'.map (·.1) ↔ p ∈ copies.map (·.1) ∨
        ∃ found ∈ met, p = (⟨""⟩ : Path).descend (dir :: rule.goal found.way) := by
  -- What was copied so far is in `items`, what is still to be copied in `met`.
  induction met generalizing items copies world with
  | nil => exact ⟨copies, world, rfl, by simpa using filling, by simp⟩
  | cons found met induction =>
      obtain ⟨way, e, rfl, picks⟩ := picked found List.mem_cons_self
      have files : ∀ item ∈ items, item.2.isFile = true := by
        intro item member
        obtain ⟨way', e', picks', rfl⟩ := earlier item member
        exact picks'.regular
      have so_far : ∀ item ∈ items ++ [(rule.goal way, e)], ∃ way e,
          rule.Picks before guard top way e ∧ item = (rule.goal way, e) := by
        intro item member
        rcases List.mem_append.mp member with member | member
        · exact earlier item member
        · exact ⟨way, e, picks, List.mem_singleton.mp member⟩
      obtain ⟨world₁, copied, filling₁⟩ := outcome_copyOne fills free opens empty filling files
        picks (apart_of_picks so_far) copies
      have listed (p : Path) := @mem_noteCopy_iff copies
        ((⟨""⟩ : Path).descend (dir :: rule.goal way)) (rule.src.descend way) (by
          intro p member same
          obtain ⟨names, rfl⟩ := plain p member
          rw [Path.eq_of_same_descend_empty same]) p
      obtain ⟨copies', world', outcome, filling', listed'⟩ := induction filling₁ so_far
        (fun found member => picked found (List.mem_cons_of_mem _ member)) (by
          intro p member
          rcases (listed p).mp member with member | rfl
          · exact plain p member
          · exact ⟨_, rfl⟩)
      refine ⟨copies', world', ?_, ?_, fun p => ?_⟩
      · rw [List.foldlM_cons, Action.outcome_bind_ok copied, outcome]
      · have joined : items ++ (⟨rule.src.descend way, way, e⟩ :: met).map rule.placed =
            items ++ [(rule.goal way, e)] ++ met.map rule.placed := by simp [placed]
        rw [joined]
        exact filling'
      · rw [listed' p, listed p, List.exists_mem_cons_iff, or_assoc]

/-- What a rule leaves of an empty place: the files it picks at their goals, directories above them
and nothing else. -/
structure Fill (rule : CopyRule) (guard : Option Location) (top place : Location)
    (before after : FileTree) : Prop where
  /-- Relative paths start where they did. -/
  here : after.here = before.here
  /-- There are no links. -/
  free : after.LinkFree
  /-- Nothing else has changed. -/
  outside : ∀ k, ¬place <+: k → after.lookup? k = before.lookup? k
  /-- Nothing is there but what the rule picks, and directories above. -/
  inside : ∀ q e, after.lookup? (place ++ q) = some e →
    (∃ way, rule.Picks before guard top way e ∧ q = rule.goal way) ∨
      e = .directory ∧ ∃ way e', rule.Picks before guard top way e' ∧ q <+: rule.goal way ∧
        q ≠ rule.goal way
  /-- All that the rule picks is there, or something else it picks for the same goal. -/
  stocked : ∀ way e, rule.Picks before guard top way e → ∃ way' e',
    rule.Picks before guard top way' e' ∧ rule.goal way' = rule.goal way ∧
      after.lookup? (place ++ rule.goal way) = some e'

theorem fill_of_filling {after : FileTree} {place : Location} {met : List Found}
    (member_iff : ∀ found, found ∈ met ↔
      ∃ way e, found = ⟨rule.src.descend way, way, e⟩ ∧ rule.Picks before guard top way e)
    (filling : Filling before after place (met.map rule.placed)) :
    rule.Fill guard top place before after where
  here := filling.here
  free := filling.free
  outside := filling.outside
  inside q e found := by
    rw [filling.inside] at found
    rcases mem_of_stock found with member | ⟨directory, item, member, above⟩
    · obtain ⟨found, in_met, same⟩ := List.mem_map.mp member
      obtain ⟨way, e', rfl, picks⟩ := (member_iff found).mp in_met
      obtain ⟨rfl, rfl⟩ := Prod.mk.inj same
      exact Or.inl ⟨way, picks, rfl⟩
    · obtain ⟨found, in_met, rfl⟩ := List.mem_map.mp member
      obtain ⟨way, e', rfl, picks⟩ := (member_iff found).mp in_met
      exact Or.inr ⟨directory, way, e', picks, above⟩
  stocked way e picks := by
    have apart : Apart (met.map rule.placed) := by
      apply apart_of_picks
      intro item member
      obtain ⟨found, in_met, rfl⟩ := List.mem_map.mp member
      obtain ⟨way, e, rfl, picks⟩ := (member_iff found).mp in_met
      exact ⟨way, e, picks, rfl⟩
    have member : (rule.goal way, e) ∈ met.map rule.placed :=
      List.mem_map.mpr ⟨_, (member_iff _).mpr ⟨way, e, rfl, picks⟩, rfl⟩
    obtain ⟨e', member', found⟩ := stock_of_mem apart member
    obtain ⟨found', in_met, same⟩ := List.mem_map.mp member'
    obtain ⟨way', e'', rfl, picks'⟩ := (member_iff found').mp in_met
    obtain ⟨goal_eq, rfl⟩ := Prod.mk.inj same
    exact ⟨way', _, picks', goal_eq, by rw [filling.inside, found]⟩

theorem apart_of_empty (source : before.lookup? top = some .directory)
    (empty : ∀ q, before.lookup? (l ++ [dir] ++ q) = none) {way : Location}
    (reached : reaches top (some l) (top ++ way) = true) : ¬l ++ [dir] <+: top ++ way := by
  intro below
  obtain ⟨q, rfl⟩ := prefix_of_reaches reached below
  exact absurd ((empty q).symm.trans source) (by simp)

/-- A rule whose source is there fills its place and lists what it put there. -/
theorem outcome_copyRule (fills : rule.Fills dir) {world : World} (free : world.tree.LinkFree)
    (opens : world.tree.Opens packageDir l)
    (empty : ∀ q, world.tree.lookup? (l ++ [dir] ++ q) = none)
    (source : world.tree.find rule.src = .ok (top, .directory)) :
    ∃ copied world', (Packager.copyRule rule packageDir (some l)).outcome world =
        (.ok copied, world') ∧
      rule.Fill (some l) top (l ++ [dir]) world.tree world'.tree ∧
      ∀ p, p ∈ copied ↔ ∃ way e, rule.Picks world.tree (some l) top way e ∧
        p = (⟨""⟩ : Path).descend (dir :: rule.goal way) := by
  obtain ⟨files, met, member_iff⟩ := mem_taken_iff (some l) source
  have none_listed : ∀ p ∈ ([] : Packager.Copies).map (·.1),
      ∃ names, p = (⟨""⟩ : Path).descend names := by simp
  obtain ⟨copies, world', outcome, filling, listed⟩ := outcome_copyAll fills free opens empty
    (Filling.start free empty) (by simp) (fun found member => (member_iff found).mp member)
    none_listed
  refine ⟨copies.map (·.1), world', ?_, fill_of_filling member_iff (by simpa using filling), ?_⟩
  · have there := ((find_eq_ok_iff free).mp source).2.2
    rw [Packager.outcome_copyRule_eq_of_apart fills free source
      (fun k => opens.directory_of_passes) (fun way reached => ?_) met,
      Action.outcome_bind_ok outcome, Action.outcome_pure]
    rw [← opens.eq_land]
    exact apart_of_empty there empty reached
  · intro p
    rw [listed p]
    simp only [List.map_nil, List.not_mem_nil, false_or, member_iff]
    constructor
    · rintro ⟨found, ⟨way, e, rfl, picks⟩, rfl⟩
      exact ⟨way, e, picks, rfl⟩
    · rintro ⟨way, e, picks, rfl⟩
      exact ⟨_, ⟨way, e, rfl, picks⟩, rfl⟩

theorem outcome_copyRule_of_missing {world : World} {fault : OsError}
    (missing : world.tree.find rule.src = .error fault) (guard : Option Location) :
    ∃ failure, (Packager.copyRule rule packageDir guard).outcome world =
      (.error failure, world) := by
  rw [Packager.copyRule, Action.outcome_bind_ok (Action.outcome_look _), id, missing]
  exact ⟨_, Action.outcome_fail _⟩

end Copying

end CopyRule

namespace Packager

/-- Copying for the rules that are present goes rule by rule. -/
theorem copyRules_filter_cons (packageDir : Path) (guard : Option Location)
    (present : CopyRule → Bool) (rule : CopyRule) (rest : List CopyRule) :
    copyRules packageDir guard ((rule :: rest).filter present) =
      (if present rule = true then copyRule rule packageDir guard else pure []) >>= fun copied =>
        copyRules packageDir guard (rest.filter present) >>= fun lists =>
          pure (if rule.keepPath then (copied ++ lists.1, lists.2)
            else (lists.1, copied ++ lists.2)) := by
  by_cases there : present rule = true
  · rw [if_pos there, List.filter_cons_of_pos there]
    rfl
  · rw [if_neg there, List.filter_cons_of_neg there]
    simp

end Packager
end PackageBuild
