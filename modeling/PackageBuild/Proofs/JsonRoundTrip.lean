import PackageBuild.Document.Json
import PackageBuild.Document.JsonReader
/-!
# Reading what was written

What is printed for a document is one JSON value, and reading it gives the document back. This
holds of documents without numbers and dates, and reports are of that kind: all they hold is texts,
switches, lists and tables.
-/

namespace PackageBuild
namespace Document

namespace JsonReader

open Value (lineBreak)

/-! ## Texts -/

theorem hex4?_control {c : Char} (control : c.toNat < 0x20) :
    Text.hex4? '0' '0' (hexDigit (c.toNat / 16)) (hexDigit c.toNat) = some c.toNat := by
  have all : ∀ i : Fin 32, Text.hex4? '0' '0' (hexDigit (i / 16)) (hexDigit i) = some i.val := by
    decide
  exact all ⟨c.toNat, control⟩

theorem exists_hex4?_of_readText {a b c d : Char} {rest : List Char} {read : List Char × List Char}
    (done : readText ('\\' :: 'u' :: a :: b :: c :: d :: rest) = some read) :
    ∃ n, Text.hex4? a b c d = some n := by
  cases code : Text.hex4? a b c d with
  | some n => exact ⟨n, rfl⟩
  | none =>
      by_cases paired : ∃ e f g h more, rest = '\\' :: 'u' :: e :: f :: g :: h :: more
      · obtain ⟨e, f, g, h, more, rfl⟩ := paired
        simp [readText, code] at done
      · rw [readText, code] at done
        · cases done
        · intro e f g h more same
          exact paired ⟨e, f, g, h, more, same⟩

theorem readText_control {c : Char} (control : c.toNat < 0x20) {rest text after : List Char}
    (read : readText rest = some (text, after)) :
    readText ('\\' :: 'u' :: '0' :: '0' :: hexDigit (c.toNat / 16) :: hexDigit c.toNat :: rest) =
      some (c :: text, after) := by
  have low : ¬ 0xD800 ≤ c.toNat := by omega
  by_cases paired : ∃ e f g h more, rest = '\\' :: 'u' :: e :: f :: g :: h :: more
  · obtain ⟨e, f, g, h, more, rfl⟩ := paired
    obtain ⟨n, code⟩ := exists_hex4?_of_readText read
    rw [readText]
    simp [hex4?_control control, code, low, read]
  · rw [readText]
    · simp [hex4?_control control, low, read]
    · intro e f g h more same
      exact paired ⟨e, f, g, h, more, same⟩

theorem readText_escapedChar (c : Char) {rest text after : List Char}
    (read : readText rest = some (text, after)) :
    readText (escapedChar c ++ rest) = some (c :: text, after) := by
  unfold escapedChar
  split
  case h_8 quote backslash _ _ _ _ _ =>
    split
    · rename_i control
      exact readText_control control read
    · rename_i printed
      rw [List.singleton_append, readText]
      · simp [printed, read]
      · exact quote
      · intros
        exact backslash ‹_›
      · intros
        exact backslash ‹_›
      · intros
        exact backslash ‹_›
  all_goals simp [readText, shortEscape?, read]

theorem readText_flatMap_escapedChar (text rest : List Char) :
    readText (text.flatMap escapedChar ++ '"' :: rest) = some (text, rest) := by
  induction text with
  | nil => rw [List.flatMap_nil, List.nil_append, readText]
  | cons c text induction =>
      rw [List.flatMap_cons, List.append_assoc]
      exact readText_escapedChar c induction

/-! ## Blanks between tokens -/

theorem skip_lineBreak (level : Nat) (cs : List Char) : skip (lineBreak level ++ cs) = skip cs := by
  have blank : ∀ n : Nat, skip (List.replicate n ' ' ++ cs) = skip cs := by
    intro n
    induction n with
    | zero => rfl
    | succ n induction => exact induction
  exact blank (2 * level)

theorem skip_of_not_isSpace {c : Char} (printed : isSpace c = false) (cs : List Char) :
    skip (c :: cs) = c :: cs := by
  rw [skip, List.dropWhile_cons_of_neg (by simp [printed])]

theorem skip_skip (cs : List Char) : skip (skip cs) = skip cs := by
  induction cs with
  | nil => rfl
  | cons c cs induction =>
      cases space : isSpace c with
      | true => simpa [skip, space] using induction
      | false => rw [skip_of_not_isSpace space, skip_of_not_isSpace space]

theorem readValue_skip (fuel : Nat) (cs : List Char) :
    readValue fuel (skip cs) = readValue fuel cs := by
  cases fuel with
  | zero => rfl
  | succ fuel => simp only [readValue, skip_skip]

theorem readItems_skip (fuel : Nat) (cs : List Char) :
    readItems fuel (skip cs) = readItems fuel cs := by
  cases fuel with
  | zero => rfl
  | succ fuel => simp only [readItems, readValue_skip]

theorem readEntries_skip (fuel : Nat) (cs : List Char) :
    readEntries fuel (skip cs) = readEntries fuel cs := by
  cases fuel with
  | zero => rfl
  | succ fuel => simp only [readEntries, skip_skip]

theorem readValue_lineBreak (fuel level : Nat) (cs : List Char) :
    readValue fuel (lineBreak level ++ cs) = readValue fuel cs := by
  rw [← readValue_skip, skip_lineBreak, readValue_skip]

theorem readValue_space (fuel : Nat) (cs : List Char) :
    readValue fuel (' ' :: cs) = readValue fuel cs := by
  rw [← readValue_skip, ← readValue_skip fuel cs]
  rfl

end JsonReader

open JsonReader

/-! ## Documents -/

namespace Value

/-- A document without numbers and dates. -/
inductive Plain : Value → Prop
  | null : Plain .null
  | bool (value : Bool) : Plain (.bool value)
  | text (value : String) : Plain (.text value)
  | list {items : List Value} (each : ∀ item ∈ items, Plain item) : Plain (.list items)
  | table {entries : List (String × Value)} (each : ∀ entry ∈ entries, Plain entry.2) :
    Plain (.table entries)

attribute [simp] Plain.null Plain.bool Plain.text

@[simp]
theorem plain_list_iff {items : List Value} :
    (list items).Plain ↔ ∀ item ∈ items, item.Plain :=
  ⟨fun | .list each => each, .list⟩

@[simp]
theorem plain_table_iff {entries : List (String × Value)} :
    (table entries).Plain ↔ ∀ entry ∈ entries, entry.2.Plain :=
  ⟨fun | .table each => each, .table⟩

@[simp]
theorem plain_texts (items : List String) : (texts items).Plain := by
  simp [texts]

@[simp]
theorem plain_optionalText (text : Option String) : (optionalText text).Plain := by
  cases text <;> simp [optionalText]

theorem sortedItems_eq_map (items : List Value) : sortedItems items = items.map sorted := by
  induction items with
  | nil => rfl
  | cons item items induction => rw [sortedItems, induction, List.map_cons]

theorem eq_or_mem_of_mem_insertSorted {key : String} {value : Value} {entry : String × Value}
    {entries : List (String × Value)} (member : entry ∈ insertSorted key value entries) :
    entry = (key, value) ∨ entry ∈ entries := by
  induction entries with
  | nil => exact Or.inl (List.mem_singleton.mp member)
  | cons first rest induction =>
      rw [insertSorted] at member
      split at member
      · exact List.mem_cons.mp member
      · split at member
        · rcases List.mem_cons.mp member with rfl | later
          · exact Or.inl rfl
          · exact Or.inr (List.mem_cons_of_mem _ later)
        · rcases List.mem_cons.mp member with rfl | later
          · exact Or.inr List.mem_cons_self
          · exact (induction later).imp_right (List.mem_cons_of_mem _)

/-- Sorting keeps a document plain. -/
theorem Plain.sorted {v : Value} (plain : v.Plain) : v.sorted.Plain := by
  induction plain with
  | null => exact .null
  | bool value => exact .bool value
  | text value => exact .text value
  | list each induction =>
      rw [Value.sorted, sortedItems_eq_map, plain_list_iff, List.forall_mem_map]
      exact induction
  | @table entries each induction =>
      have general : ∀ entries done : List (String × Value),
          (∀ entry ∈ entries, entry.2.sorted.Plain) → (∀ entry ∈ done, entry.2.Plain) →
            ∀ entry ∈ sortedEntries entries done, entry.2.Plain := by
        intro entries
        induction entries with
        | nil => exact fun done _ plain => plain
        | cons entry entries sort =>
            intro done each plain
            rw [sortedEntries]
            refine sort _ (fun entry member => each entry (List.mem_cons_of_mem _ member)) ?_
            intro inserted member
            rcases eq_or_mem_of_mem_insertSorted member with rfl | before
            · exact each entry List.mem_cons_self
            · exact plain inserted before
      rw [Value.sorted]
      exact .table (general entries [] induction (by simp))

/-- A plain document begins with a character that ends no list. -/
theorem Plain.exists_head {v : Value} (plain : v.Plain) (level : Nat) :
    ∃ c cs, v.prettyChars level = c :: cs ∧ isSpace c = false ∧ c ≠ ']' := by
  cases plain with
  | null => exact ⟨_, _, rfl, by decide, by decide⟩
  | bool value => cases value <;> exact ⟨_, _, rfl, by decide, by decide⟩
  | text value => exact ⟨_, _, rfl, by decide, by decide⟩
  | @list items each => cases items <;> exact ⟨_, _, rfl, by decide, by decide⟩
  | @table entries each => cases entries <;> exact ⟨_, _, rfl, by decide, by decide⟩

/-- Whether what is printed for a value is read as that value, whatever follows it. -/
def ReadsBack (v : Value) : Prop :=
  ∀ level fuel rest, (v.prettyChars level).length ≤ fuel →
    readValue fuel (v.prettyChars level ++ rest) = some (v, rest)

theorem readsBack_text (text : String) : ReadsBack (.text text) := by
  intro level fuel rest enough
  cases fuel with
  | zero => cases enough
  | succ fuel =>
      have printed : prettyChars level (.text text) ++ rest =
          '"' :: (text.toList.flatMap escapedChar ++ '"' :: rest) := by
        simp [prettyChars, scalar?, jsonText]
      rw [printed, readValue, skip_of_not_isSpace (by decide)]
      simp [readText_flatMap_escapedChar]

theorem prettyItems_cons {level : Nat} {item : Value} {items : List Value}
    (more : items ≠ []) : prettyItems level (item :: items) =
      lineBreak (level + 1) ++ prettyChars (level + 1) item ++ ',' :: prettyItems level items := by
  rw [prettyItems]
  exact more

theorem prettyEntries_cons {level : Nat} {key : String} {value : Value}
    {entries : List (String × Value)} (more : entries ≠ []) :
    prettyEntries level ((key, value) :: entries) =
      lineBreak (level + 1) ++ jsonText key ++ ':' :: ' ' :: prettyChars (level + 1) value ++
        ',' :: prettyEntries level entries := by
  rw [prettyEntries]
  exact more

theorem readItems_prettyItems {items : List Value} (each : ∀ item ∈ items, ReadsBack item)
    (some_item : items ≠ []) (level fuel : Nat) (rest : List Char)
    (enough : (prettyItems level items).length ≤ fuel) :
    readItems fuel (prettyItems level items ++ rest) = some (items, rest) := by
  induction items generalizing fuel with
  | nil => exact absurd rfl some_item
  | cons item items induction =>
      have head := each item List.mem_cons_self
      cases items with
      | nil =>
          simp only [prettyItems, lineBreak, List.length_append, List.length_cons] at enough
          obtain ⟨fuel, rfl⟩ := Nat.exists_eq_add_one.mpr (by omega : 0 < fuel)
          have printed : prettyItems level [item] ++ rest = lineBreak (level + 1) ++
              (prettyChars (level + 1) item ++ (lineBreak level ++ ']' :: rest)) := by
            simp [prettyItems]
          have read := head (level + 1) fuel (lineBreak level ++ ']' :: rest) (by omega)
          have close : skip (lineBreak level ++ ']' :: rest) = ']' :: rest := by
            rw [skip_lineBreak, skip_of_not_isSpace (by decide)]
          rw [printed, readItems, readValue_lineBreak, read]
          simp [close]
      | cons next items =>
          have more : next :: items ≠ [] := List.cons_ne_nil _ _
          rw [prettyItems_cons more] at enough ⊢
          simp only [lineBreak, List.length_append, List.length_cons] at enough
          obtain ⟨fuel, rfl⟩ := Nat.exists_eq_add_one.mpr (by omega : 0 < fuel)
          have read := head (level + 1) fuel (',' :: (prettyItems level (next :: items) ++ rest))
            (by omega)
          have comma : skip (',' :: (prettyItems level (next :: items) ++ rest)) =
              ',' :: (prettyItems level (next :: items) ++ rest) :=
            skip_of_not_isSpace (by decide) _
          have read_rest := induction (fun item member => each item (List.mem_cons_of_mem _ member))
            more fuel (by omega)
          rw [List.append_assoc, List.append_assoc, readItems, readValue_lineBreak,
            List.cons_append, read]
          simp [comma, read_rest]

theorem skip_lineBreak_jsonText (level : Nat) (key : String) (rest : List Char) :
    skip (lineBreak level ++ jsonText key ++ rest) =
      '"' :: (key.toList.flatMap escapedChar ++ '"' :: rest) := by
  have quote (cs : List Char) : skip ('"' :: cs) = '"' :: cs := skip_of_not_isSpace (by decide) cs
  rw [List.append_assoc, skip_lineBreak, jsonText]
  simp [quote]

theorem readEntries_prettyEntries {entries : List (String × Value)}
    (each : ∀ entry ∈ entries, ReadsBack entry.2)
    (some_entry : entries ≠ []) (level fuel : Nat) (rest : List Char)
    (enough : (prettyEntries level entries).length ≤ fuel) :
    readEntries fuel (prettyEntries level entries ++ rest) = some (entries, rest) := by
  induction entries generalizing fuel with
  | nil => exact absurd rfl some_entry
  | cons entry entries induction =>
      obtain ⟨key, value⟩ := entry
      have head : ReadsBack value := each _ List.mem_cons_self
      have colon (cs : List Char) : skip (':' :: cs) = ':' :: cs :=
        skip_of_not_isSpace (by decide) cs
      cases entries with
      | nil =>
          simp only [prettyEntries, lineBreak, List.length_append, List.length_cons] at enough
          obtain ⟨fuel, rfl⟩ := Nat.exists_eq_add_one.mpr (by omega : 0 < fuel)
          have printed : prettyEntries level [(key, value)] ++ rest =
              lineBreak (level + 1) ++ jsonText key ++ ':' :: ' ' ::
                (prettyChars (level + 1) value ++ (lineBreak level ++ '\x7d' :: rest)) := by
            simp [prettyEntries]
          have read := head (level + 1) fuel (lineBreak level ++ '\x7d' :: rest) (by omega)
          have close : skip (lineBreak level ++ '\x7d' :: rest) = '\x7d' :: rest := by
            rw [skip_lineBreak, skip_of_not_isSpace (by decide)]
          rw [printed, readEntries, skip_lineBreak_jsonText]
          simp [readText_flatMap_escapedChar, colon, readValue_space, read, close]
      | cons next entries =>
          have more : next :: entries ≠ [] := List.cons_ne_nil _ _
          rw [prettyEntries_cons more] at enough ⊢
          simp only [lineBreak, List.length_append, List.length_cons] at enough
          obtain ⟨fuel, rfl⟩ := Nat.exists_eq_add_one.mpr (by omega : 0 < fuel)
          have printed : lineBreak (level + 1) ++ jsonText key ++
                ':' :: ' ' :: prettyChars (level + 1) value ++
                  ',' :: prettyEntries level (next :: entries) ++ rest =
              lineBreak (level + 1) ++ jsonText key ++ ':' :: ' ' ::
                (prettyChars (level + 1) value ++
                  ',' :: (prettyEntries level (next :: entries) ++ rest)) := by
            simp
          have read := head (level + 1) fuel
            (',' :: (prettyEntries level (next :: entries) ++ rest)) (by omega)
          have comma : skip (',' :: (prettyEntries level (next :: entries) ++ rest)) =
              ',' :: (prettyEntries level (next :: entries) ++ rest) :=
            skip_of_not_isSpace (by decide) _
          have read_rest := induction
            (fun entry member => each entry (List.mem_cons_of_mem _ member)) more fuel (by omega)
          rw [printed, readEntries, skip_lineBreak_jsonText]
          simp [readText_flatMap_escapedChar, colon, readValue_space, read, comma, read_rest]

theorem readValue_items {fuel : Nat} {c : Char} {cs more : List Char} (first : skip cs = c :: more)
    (open_ : c ≠ ']') : readValue (fuel + 1) ('[' :: cs) =
      (readItems fuel cs).map fun read => (.list read.1, read.2) := by
  have bracket : skip ('[' :: cs) = '[' :: cs := skip_of_not_isSpace (by decide) cs
  rw [readValue, bracket]
  simp only
  split
  · rename_i closed
    exact absurd (List.cons.inj (first.symm.trans closed)).1 open_
  · rw [readItems_skip, Option.map_eq_bind]
    rfl

theorem readValue_entries {fuel : Nat} {cs more : List Char} (first : skip cs = '"' :: more) :
    readValue (fuel + 1) ('\x7b' :: cs) =
      (readEntries fuel cs).map fun read => (.table read.1, read.2) := by
  have brace : skip ('\x7b' :: cs) = '\x7b' :: cs := skip_of_not_isSpace (by decide) cs
  rw [readValue, brace]
  simp only
  split
  · rename_i closed
    simp [first] at closed
  · rw [readEntries_skip, Option.map_eq_bind]
    rfl

/-- Reading needs at least one step for a plain document. -/
theorem Plain.readsBack_of_succ {v : Value} (plain : v.Plain)
    (reads : ∀ level fuel rest, (v.prettyChars level).length ≤ fuel + 1 →
      readValue (fuel + 1) (v.prettyChars level ++ rest) = some (v, rest)) : v.ReadsBack := by
  intro level fuel rest enough
  cases fuel with
  | zero =>
      obtain ⟨c, cs, printed, -, -⟩ := plain.exists_head level
      rw [printed] at enough
      cases enough
  | succ fuel => exact reads level fuel rest enough

/-- What is printed for a plain document is read as that document. -/
theorem Plain.readsBack {v : Value} (plain : v.Plain) : v.ReadsBack := by
  induction plain with
  | null => exact readsBack_of_succ .null fun _ _ _ _ => rfl
  | bool value =>
      refine readsBack_of_succ (.bool value) fun _ _ _ _ => ?_
      cases value <;> rfl
  | text value => exact readsBack_text value
  | @list items each induction =>
      refine readsBack_of_succ (.list each) fun level fuel rest enough => ?_
      cases items with
      | nil => rfl
      | cons item items =>
          obtain ⟨c, cs, printed, proper, open_⟩ :=
            (each item List.mem_cons_self).exists_head (level + 1)
          have first : ∃ more, skip (prettyItems level (item :: items) ++ rest) = c :: more := by
            cases items <;>
              simp [prettyItems, skip_lineBreak, printed, skip_of_not_isSpace proper]
          obtain ⟨more, first⟩ := first
          rw [prettyChars, List.length_cons] at enough
          rw [prettyChars, List.cons_append, readValue_items first open_,
            readItems_prettyItems induction (List.cons_ne_nil _ _) level fuel rest (by omega)]
          all_goals simp
  | @table entries each induction =>
      refine readsBack_of_succ (.table each) fun level fuel rest enough => ?_
      cases entries with
      | nil => rfl
      | cons entry entries =>
          have quote (cs : List Char) : skip ('"' :: cs) = '"' :: cs :=
            skip_of_not_isSpace (by decide) cs
          have first : ∃ more, skip (prettyEntries level (entry :: entries) ++ rest) =
              '"' :: more := by
            cases entries <;> simp [prettyEntries, skip_lineBreak, jsonText, quote]
          obtain ⟨more, first⟩ := first
          rw [prettyChars, List.length_cons] at enough
          rw [prettyChars, List.cons_append, readValue_entries first,
            readEntries_prettyEntries induction (List.cons_ne_nil _ _) level fuel rest (by omega)]
          all_goals simp

theorem Plain.readJson?_pretty {v : Value} (plain : v.Plain) : readJson? v.pretty = some v := by
  have read := plain.readsBack 0 (2 * (v.prettyChars 0).length + 2) [] (by omega)
  rw [List.append_nil] at read
  rw [readJson?, pretty, String.toList_ofList]
  simp only [read, Option.bind_eq_bind, Option.bind_some]
  rfl

end Value
end Document
end PackageBuild
