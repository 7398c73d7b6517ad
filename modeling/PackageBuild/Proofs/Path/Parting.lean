import PackageBuild.Proofs.FileTree.Resolution
import PackageBuild.Proofs.Path.Joining
/-!
# Where paths part

What is joined to a base is seen from the base as it was. Two paths from the root share their first
names and part behind them: one is seen from the other as a step up for each name of the other that
they do not share, followed by the names of its own. Joined to the other, with every step up
cancelled against the name before it, this leads back.
-/

namespace PackageBuild

/-! ## Steps up that cancel -/

namespace Component

/-- Components with one more behind them; a step up cancels the name before it. -/
def settle (before : List Component) : Component → List Component
  | .parent =>
    match before.getLast? with
    | some (.normal _) => before.dropLast
    | _ => before ++ [.parent]
  | c => before ++ [c]

/-- Components in which every step up has cancelled the name before it. -/
def settled (cs : List Component) : List Component := cs.foldl settle []

theorem foldl_settle_normal (before : List Component) (names : List Name) :
    (names.map Component.normal).foldl settle before = before ++ names.map .normal := by
  induction names generalizing before with
  | nil => simp
  | cons name names induction => simp [induction, settle]

theorem foldl_settle_parents (before : List Component) (names : List Name) :
    (List.replicate names.length Component.parent).foldl settle (before ++ names.map .normal) =
      before := by
  induction names using List.reverseRecOn with
  | nil => simp
  | append_singleton names name induction =>
      have cancelled : settle (before ++ (names ++ [name]).map .normal) .parent =
          before ++ names.map .normal := by
        simp [settle, ← List.append_assoc]
      rw [List.length_append, List.length_singleton, List.replicate_succ, List.foldl_cons,
        cancelled, induction]

/-- One more component leads on from where those before it lead, whether it cancels one or not. -/
theorem foldl_advance_settle (here : Location) (before : List Component) (c : Component) :
    (settle before c).foldl advance here = advance (before.foldl advance here) c := by
  unfold settle
  split
  · split
    · rename_i name last
      obtain ⟨front, rfl⟩ := List.getLast?_eq_some_iff.mp last
      rw [List.dropLast_concat, List.foldl_concat, advance, advance, List.dropLast_concat]
    · exact List.foldl_concat advance here .parent before
  · exact List.foldl_concat advance here _ before

theorem foldl_advance_settled (here : Location) (cs : List Component) :
    (settled cs).foldl advance here = cs.foldl advance here := by
  rw [settled]
  induction cs using List.reverseRecOn with
  | nil => rfl
  | append_singleton cs c induction =>
      rw [List.foldl_concat, foldl_advance_settle, induction, List.foldl_concat]

end Component

namespace Path

variable {base p : Path} {froms tos shared up down : List Name}

/-! ## Shared names -/

/-- Names that are shared up to where they part: no longer list is at the head of both. -/
structure Parting (froms tos shared up down : List Name) : Prop where
  /-- The first names go on behind the shared ones. -/
  from_eq : froms = shared ++ up
  /-- So do the second ones. -/
  to_eq : tos = shared ++ down
  /-- Whatever is at the head of both is at the head of the shared names. -/
  longest : ∀ front, front <+: froms → front <+: tos → front <+: shared

theorem exists_parting (froms tos : List Name) :
    ∃ shared up down, Parting froms tos shared up down := by
  induction froms generalizing tos with
  | nil => exact ⟨[], [], tos, rfl, rfl, fun _ in_froms _ => in_froms⟩
  | cons name froms induction =>
      cases tos with
      | nil => exact ⟨[], name :: froms, [], rfl, rfl, fun _ _ in_tos => in_tos⟩
      | cons other tos =>
          by_cases same : name = other
          · obtain rfl := same
            obtain ⟨shared, up, down, parting⟩ := induction tos
            refine ⟨name :: shared, up, down, ?_, ?_, ?_⟩
            · rw [parting.from_eq, List.cons_append]
            · rw [parting.to_eq, List.cons_append]
            · intro front in_froms in_tos
              cases front with
              | nil => exact List.nil_prefix
              | cons first front =>
                  rw [List.cons_prefix_cons] at in_froms in_tos ⊢
                  exact ⟨in_froms.1, parting.longest front in_froms.2 in_tos.2⟩
          · refine ⟨[], name :: froms, other :: tos, rfl, rfl, ?_⟩
            intro front in_froms in_tos
            cases front with
            | nil => exact List.nil_prefix
            | cons first front =>
                rw [List.cons_prefix_cons] at in_froms in_tos
                exact absurd (in_froms.1.symm.trans in_tos.1) same

theorem Parting.next_ne {name other : Name} {up down : List Name}
    (parting : Parting froms tos shared (name :: up) (other :: down)) : other ≠ name := by
  rintro rfl
  have further : shared ++ [other] <+: shared := by
    apply parting.longest
    · rw [parting.from_eq, List.prefix_append_right_inj]
      exact List.prefix_append [other] up
    · rw [parting.to_eq, List.prefix_append_right_inj]
      exact List.prefix_append [other] down
  have longer := further.length_le
  rw [List.length_append, List.length_singleton] at longer
  omega

/-! ## The steps between paths that part -/

theorem between_append_left (front target base : List Component) :
    between false (front ++ target) (front ++ base) = between false target base := by
  induction front with
  | nil => rfl
  | cons c front induction =>
      rw [List.cons_append, List.cons_append, between, if_pos (by simp), induction]

theorem between_nil (started : Bool) (base : List Component) :
    between started [] base = some (List.replicate base.length .parent) := by
  induction base generalizing started with
  | nil => rfl
  | cons b base induction =>
      rw [between, induction, List.length_cons, List.replicate_succ]
      rfl

/-- The steps between paths that part go up out of the first names and down through the second. -/
theorem Parting.between_eq (parting : Parting froms tos shared up down) (front : List Component) :
    between false (front ++ tos.map .normal) (front ++ froms.map .normal) =
      some (List.replicate up.length .parent ++ down.map .normal) := by
  rw [between_append_left, parting.to_eq, parting.from_eq, List.map_append, List.map_append,
    between_append_left]
  cases up with
  | nil =>
      rw [List.map_nil, List.length_nil, List.replicate_zero, List.nil_append, between]
  | cons name up =>
      cases down with
      | nil =>
          rw [List.map_nil, between_nil, List.length_map, List.append_nil]
      | cons other down =>
          have differ : Component.normal other ≠ Component.normal name := by
            intro same
            exact parting.next_ne (Component.normal.inj same)
          have ups : (up.map Component.normal).map (fun _ => Component.parent) =
              List.replicate up.length .parent := by
            rw [List.map_const', List.length_map]
          rw [List.map_cons, List.map_cons, between, if_neg (fun common => differ common.2),
            if_neg (by simp), if_neg (by simp), ups, List.length_cons, List.replicate_succ]

/-- A path is seen from a base as the steps between where they part. -/
theorem Parting.components_under (parting : Parting froms tos shared up down)
    (from_root : base.components = .root :: froms.map .normal)
    (to_root : p.components = .root :: tos.map .normal) :
    (base.under p).components = List.replicate up.length .parent ++ down.map .normal := by
  cases up with
  | nil =>
      apply Path.components_under
      rw [to_root, from_root, parting.to_eq, parting.from_eq, List.append_nil, List.map_append,
        List.length_nil, List.replicate_zero, List.nil_append, List.cons_append]
  | cons name up =>
      have unstripped : strip? base p = none := by
        rw [Option.eq_none_iff_forall_ne_some]
        intro rest stripped
        have whole := components_strip? stripped
        rw [to_root, from_root, parting.to_eq, parting.from_eq, List.cons_append, List.map_append,
          List.map_append, List.append_assoc] at whole
        have behind := List.append_cancel_left (List.cons.inj whole).2
        cases down with
        | nil => exact absurd behind (by simp)
        | cons other down =>
            have same : Component.normal other = Component.normal name := (List.cons.inj behind).1
            exact parting.next_ne (Component.normal.inj same)
      have base_absolute : base.isAbsolute = true := by
        rw [← head?_components_iff, from_root, List.head?_cons]
      have absolute : p.isAbsolute = true := by
        rw [← head?_components_iff, to_root, List.head?_cons]
      have led := parting.between_eq [.root]
      rw [List.singleton_append, List.singleton_append, ← to_root, ← from_root] at led
      rw [under, unstripped]
      simp only [base_absolute, absolute, led, if_true]
      exact components_ofComponents (by simp) (by simp)

/-- Going up to where names part and down again leads from the first names to the second. -/
theorem Parting.settled_eq (parting : Parting froms tos shared up down) :
    Component.settled (.root :: froms.map .normal ++
      (List.replicate up.length .parent ++ down.map .normal)) = .root :: tos.map .normal := by
  have before : (Component.root :: froms.map .normal).foldl Component.settle [] =
      .root :: froms.map .normal := Component.foldl_settle_normal [.root] froms
  rw [Component.settled, List.foldl_append, before, parting.from_eq, List.map_append,
    ← List.cons_append, List.foldl_append, Component.foldl_settle_parents,
    Component.foldl_settle_normal, List.cons_append, ← List.map_append, ← parting.to_eq]

/-! ## Leading back -/

/-- What leads through names is seen from a base that it is joined to as it was. Between two paths
from the root through names, the relative path has one step up for each component of the base
beyond the longest front that both share, and then the names of the other path behind it. Joined to
the base, with every step up cancelled against the name before it, it has the components of the
other path, and it leads to the same location. -/
theorem under_leads_back (base : Path) :
    (∀ (rest : Path) (names : List Name), rest.components = names.map .normal →
      (base.under (base.join rest)).components = rest.components) ∧
    ∀ (p : Path) (froms tos : List Name), base.components = .root :: froms.map .normal →
      p.components = .root :: tos.map .normal →
      ∃ shared up down, Parting froms tos shared up down ∧
        (base.under p).components = List.replicate up.length .parent ++ down.map .normal ∧
        Component.settled (base.join (base.under p)).components = p.components ∧
        ∀ here, (base.join (base.under p)).land here = p.land here := by
  constructor
  · intro rest names through
    apply components_under
    apply components_join_of_dotless base
    · simp [through]
    · simp [through]
  · intro p froms tos from_root to_root
    obtain ⟨shared, up, down, parting⟩ := exists_parting froms tos
    have steps := parting.components_under from_root to_root
    have joined : (base.join (base.under p)).components =
        base.components ++ (base.under p).components :=
      components_join_of_dotless base (by simp [steps]) (by simp [steps])
    have settled : Component.settled (base.join (base.under p)).components = p.components := by
      rw [joined, steps, from_root, parting.settled_eq, to_root]
    refine ⟨shared, up, down, parting, steps, settled, ?_⟩
    intro here
    rw [land, land, ← settled, Component.foldl_advance_settled]

example : (⟨"/pkg/include"⟩ : Path).under ⟨"/pkg/lib/libsv.a"⟩ = ⟨"../lib/libsv.a"⟩ := by
  decide +kernel

/-- The names on the way to the headers of a small package. -/
def smallHeaders : List Name := [⟨"opt", by decide⟩, ⟨"headers", by decide⟩, ⟨"sv", by decide⟩]

/-- The names on the way to its library. -/
def smallLibrary : List Name := [⟨"opt", by decide⟩, ⟨"libs", by decide⟩, ⟨"libsv.a", by decide⟩]

/-- A header is seen from the directory of the headers as it was joined, and the steps from there to
the library lead back to it. -/
theorem small_library_led_back :
    (⟨"util.h"⟩ : Path).components = [⟨"util.h", by decide⟩].map .normal ∧
    (⟨"/opt/headers/sv/"⟩ : Path).components = .root :: smallHeaders.map .normal ∧
    (⟨"/opt//libs/./libsv.a"⟩ : Path).components = .root :: smallLibrary.map .normal ∧
    ((⟨"/opt/headers/sv/"⟩ : Path).under
      ((⟨"/opt/headers/sv/"⟩ : Path).join ⟨"util.h"⟩)).components =
        (⟨"util.h"⟩ : Path).components ∧
    Component.settled ((⟨"/opt/headers/sv/"⟩ : Path).join
      ((⟨"/opt/headers/sv/"⟩ : Path).under ⟨"/opt//libs/./libsv.a"⟩)).components =
        (⟨"/opt//libs/./libsv.a"⟩ : Path).components ∧
    ∃ shared up down, Parting smallHeaders smallLibrary shared up down ∧
      ((⟨"/opt/headers/sv/"⟩ : Path).under ⟨"/opt//libs/./libsv.a"⟩).components =
        List.replicate up.length .parent ++ down.map .normal := by
  have through : (⟨"util.h"⟩ : Path).components = [⟨"util.h", by decide⟩].map .normal := by
    decide +kernel
  have from_root : (⟨"/opt/headers/sv/"⟩ : Path).components =
      .root :: smallHeaders.map .normal := by decide +kernel
  have to_root : (⟨"/opt//libs/./libsv.a"⟩ : Path).components =
      .root :: smallLibrary.map .normal := by decide +kernel
  obtain ⟨back, ways⟩ := under_leads_back ⟨"/opt/headers/sv/"⟩
  obtain ⟨shared, up, down, parting, steps, settled, -⟩ := ways _ _ _ from_root to_root
  exact ⟨through, from_root, to_root, back _ _ through, settled, shared, up, down, parting, steps⟩

end Path
end PackageBuild
