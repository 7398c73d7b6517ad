import PackageBuild.ArtifactLayout
import PackageBuild.Proofs.FileTree.Lookup
import PackageBuild.Proofs.Outcome
import Mathlib.Data.List.Forall2
/-!
# What a fingerprint tells

A fingerprint is the digest of a stream of entries, one for each listed file: its path, a zero byte,
the digest of its content in hexadecimal, and another zero byte. Where no path has a zero byte of
its own the stream can be cut into its entries in one way only, so equal fingerprints come from
equal paths and equal contents, unless the digest collides on two contents or on the two streams.
-/

namespace PackageBuild

/-- The byte that ends every part of an entry. -/
private abbrev stop : UInt8 := 0

private theorem append_stop_inj {front front' back back' : List UInt8} (free : stop ∉ front)
    (free' : stop ∉ front') (same : front ++ stop :: back = front' ++ stop :: back') :
    front = front' ∧ back = back' := by
  induction front generalizing front' with
  | nil =>
      cases front' with
      | nil => exact ⟨rfl, (List.cons.inj same).2⟩
      | cons byte rest => exact absurd (List.cons.inj same).1 (List.ne_of_not_mem_cons free')
  | cons byte rest induction =>
      cases front' with
      | nil => exact absurd (List.cons.inj same).1.symm (List.ne_of_not_mem_cons free)
      | cons byte' rest' =>
          obtain ⟨rfl, rest_same⟩ := List.cons.inj same
          obtain ⟨rfl, back_eq⟩ := induction (List.not_mem_of_not_mem_cons free)
            (List.not_mem_of_not_mem_cons free') rest_same
          exact ⟨rfl, back_eq⟩

/-! ## Bytes of texts -/

namespace Text

/-- A text without the one character that is written with a zero byte. -/
def NulFree (text : String) : Prop := '\x00' ∉ text.toList

instance (text : String) : Decidable (NulFree text) := inferInstanceAs (Decidable (_ ∉ _))

/-- The bytes of a text in UTF-8. -/
def bytes (text : String) : List UInt8 := text.toUTF8.data.toList

theorem bytes_inj {text text' : String} : bytes text = bytes text' ↔ text = text' := by
  rw [bytes, bytes, Array.toList_inj, ← ByteArray.ext_iff, String.toUTF8_eq_toByteArray,
    String.toUTF8_eq_toByteArray, String.toByteArray_inj]

theorem bytes_eq_flatMap (text : String) :
    bytes text = text.toList.flatMap String.utf8EncodeChar := by
  have encoded := String.toByteArray_ofList (l := text.toList)
  rw [String.ofList_toList] at encoded
  rw [bytes, String.toUTF8_eq_toByteArray, encoded, List.utf8Encode, List.data_toByteArray]

theorem stop_not_mem_utf8EncodeChar {c : Char} (other : c ≠ '\x00') :
    stop ∉ String.utf8EncodeChar c := by
  have positive : c.val.toNat ≠ 0 := fun zero => other (Char.ext (UInt32.toNat_inj.mp zero))
  have kept {n : Nat} (remains : n % 256 ≠ 0) : stop ≠ UInt8.ofNat n := by
    intro zero
    have numbers := congrArg UInt8.toNat zero
    rw [UInt8.toNat_ofNat'] at numbers
    exact remains numbers.symm
  fun_cases String.utf8EncodeChar
  all_goals simp only [List.mem_cons, List.not_mem_nil, or_false, not_or]
  case case1 => exact kept (by omega)
  -- The first byte of a longer code is at least 192, and all others are at least 128.
  case case2 => exact ⟨kept (by omega), kept (by omega)⟩
  case case3 => exact ⟨kept (by omega), kept (by omega), kept (by omega)⟩
  case case4 => exact ⟨kept (by omega), kept (by omega), kept (by omega), kept (by omega)⟩

theorem NulFree.stop_not_mem {text : String} (free : NulFree text) : stop ∉ bytes text := by
  rw [bytes_eq_flatMap, List.mem_flatMap]
  rintro ⟨c, member, zero⟩
  refine stop_not_mem_utf8EncodeChar (fun nul => free ?_) zero
  exact nul ▸ member

end Text

/-! ## Digests and their digits -/

namespace Sha256

/-- The digest of a message, as the words of the last state. -/
def digest (message : ByteArray) : List UInt32 :=
  let input := words (padded message.toList)
  (absorb input.length .initial input).toList

theorem hex_eq (message : ByteArray) :
    hex message = String.ofList ((digest message).flatMap wordDigits) := rfl

/-- Two different messages have one digest. -/
def Collides (message message' : ByteArray) : Prop :=
  message ≠ message' ∧ digest message = digest message'

theorem digitChar_inj {n m : Nat} (small : n < 16) (small' : m < 16)
    (same : Nat.digitChar n = Nat.digitChar m) : n = m := by
  have all : ∀ i j : Fin 16, Nat.digitChar i = Nat.digitChar j → i = j := by decide
  exact congrArg Fin.val (all ⟨n, small⟩ ⟨m, small'⟩ same)

theorem wordDigits_inj {w w' : UInt32} (same : wordDigits w = wordDigits w') : w = w' := by
  have digit (shift : Nat) (member : shift ∈ [28, 24, 20, 16, 12, 8, 4, 0]) :
      w.toNat / 2 ^ shift % 16 = w'.toNat / 2 ^ shift % 16 := by
    have digits := List.map_inj_left.mp same shift member
    rw [← Nat.shiftRight_eq_div_pow, ← Nat.shiftRight_eq_div_pow]
    exact digitChar_inj (Nat.mod_lt _ (by decide)) (Nat.mod_lt _ (by decide)) digits
  have step (shift : Nat) (member : shift ∈ [28, 24, 20, 16, 12, 8, 4, 0])
      (above : w.toNat / 2 ^ (shift + 4) = w'.toNat / 2 ^ (shift + 4)) :
      w.toNat / 2 ^ shift = w'.toNat / 2 ^ shift := by
    have lowest := digit shift member
    rw [Nat.pow_add, ← Nat.div_div_eq_div_mul, ← Nat.div_div_eq_div_mul] at above
    omega
  have top : w.toNat / 2 ^ 32 = w'.toNat / 2 ^ 32 := by
    rw [Nat.div_eq_of_lt w.toNat_lt, Nat.div_eq_of_lt w'.toNat_lt]
  have half : w.toNat / 2 ^ 16 = w'.toNat / 2 ^ 16 :=
    step 16 (by decide) (step 20 (by decide) (step 24 (by decide) (step 28 (by decide) top)))
  have whole : w.toNat / 2 ^ 0 = w'.toNat / 2 ^ 0 :=
    step 0 (by decide) (step 4 (by decide) (step 8 (by decide) (step 12 (by decide) half)))
  rw [Nat.pow_zero, Nat.div_one, Nat.div_one] at whole
  exact UInt32.toNat_inj.mp whole

theorem flatMap_wordDigits_inj {ws ws' : List UInt32}
    (same : ws.flatMap wordDigits = ws'.flatMap wordDigits) : ws = ws' := by
  induction ws generalizing ws' with
  | nil =>
      cases ws' with
      | nil => rfl
      | cons w' ws' => cases same
  | cons w ws induction =>
      cases ws' with
      | nil => cases same
      | cons w' ws' =>
          obtain ⟨head, tail⟩ := List.append_inj same rfl
          rw [wordDigits_inj head, induction tail]

theorem hex_eq_hex_iff {message message' : ByteArray} :
    hex message = hex message' ↔ digest message = digest message' := by
  constructor
  · intro same
    rw [hex_eq, hex_eq, String.ofList_inj] at same
    exact flatMap_wordDigits_inj same
  · intro same
    rw [hex_eq, hex_eq, same]

theorem eq_or_collides {message message' : ByteArray} (same : hex message = hex message') :
    message = message' ∨ Collides message message' := by
  by_cases equal : message = message'
  · exact Or.inl equal
  · exact Or.inr ⟨equal, hex_eq_hex_iff.mp same⟩

theorem nulFree_hex (message : ByteArray) : Text.NulFree (hex message) := by
  rw [hex_eq, Text.NulFree, String.toList_ofList, List.mem_flatMap]
  rintro ⟨w, -, member⟩
  obtain ⟨shift, -, nul⟩ := List.mem_map.mp member
  have digits : ∀ i : Fin 16, Nat.digitChar i ≠ '\x00' := by decide
  exact digits ⟨_, Nat.mod_lt _ (by decide)⟩ nul

end Sha256

/-! ## Streams of entries -/

namespace TreeDigest

/-- The bytes of entries one after the other. -/
def written (entries : List (String × String)) : List UInt8 :=
  entries.flatMap fun entry =>
    Text.bytes entry.1 ++ stop :: (Text.bytes entry.2 ++ [stop])

theorem toList_entryBytes (entry : String × String) :
    (entryBytes entry).data.toList =
      Text.bytes entry.1 ++ stop :: (Text.bytes entry.2 ++ [stop]) := by
  simp [entryBytes, terminated, Text.bytes, ByteArray.data_push, ByteArray.data_append]

theorem toList_stream (d : TreeDigest) : d.stream.data.toList = written d.entries := by
  have general (start : ByteArray) :
      (d.entries.foldl (fun bytes entry => bytes ++ entryBytes entry) start).data.toList =
        start.data.toList ++ written d.entries := by
    induction d.entries generalizing start with
    | nil => simp [written]
    | cons entry rest induction =>
        rw [List.foldl_cons, induction, ByteArray.data_append, Array.toList_append,
          toList_entryBytes, List.append_assoc]
        rfl
  exact general .empty

/-- Entries whose parts have no zero byte can be read back from their bytes. -/
theorem written_inj {entries entries' : List (String × String)}
    (free : ∀ entry ∈ entries, Text.NulFree entry.1 ∧ Text.NulFree entry.2)
    (free' : ∀ entry ∈ entries', Text.NulFree entry.1 ∧ Text.NulFree entry.2)
    (same : written entries = written entries') : entries = entries' := by
  induction entries generalizing entries' with
  | nil =>
      cases entries' with
      | nil => rfl
      | cons entry' rest' => simp [written] at same
  | cons entry rest induction =>
      cases entries' with
      | nil => simp [written] at same
      | cons entry' rest' =>
          obtain ⟨name_free, digest_free⟩ := free entry List.mem_cons_self
          obtain ⟨name_free', digest_free'⟩ := free' entry' List.mem_cons_self
          simp only [written, List.flatMap_cons, List.append_assoc, List.cons_append,
            List.nil_append] at same
          obtain ⟨name, after_name⟩ :=
            append_stop_inj name_free.stop_not_mem name_free'.stop_not_mem same
          obtain ⟨digest, after_digest⟩ :=
            append_stop_inj digest_free.stop_not_mem digest_free'.stop_not_mem after_name
          rw [Prod.ext (Text.bytes_inj.mp name) (Text.bytes_inj.mp digest),
            induction (fun e member => free e (List.mem_cons_of_mem _ member))
              (fun e member => free' e (List.mem_cons_of_mem _ member)) after_digest]

end TreeDigest

/-! ## Fingerprints -/

namespace ArtifactLayout

/-- All listed files in the order in which the fingerprint takes them. -/
def listed (l : ArtifactLayout) : List Path := l.headers ++ l.libraries

/-- The bytes of the listed files, in order. -/
def Contents (t : FileTree) (l : ArtifactLayout) (contents : List ByteArray) : Prop :=
  l.listed.Forall₂ (fun file bytes => t.readBytes (l.root.join file) = .ok bytes) contents

/-- The entries of files with these contents. -/
def entriesOf (files : List Path) (contents : List ByteArray) : List (String × String) :=
  (files.zip contents).map fun item => (item.1.text, Sha256.hex item.2)

theorem fileDigest_eq_ok_iff {t : FileTree} {p : Path} {digest : String} :
    fileDigest t p = .ok digest ↔
      ∃ bytes, t.readBytes p = .ok bytes ∧ digest = Sha256.hex bytes := by
  unfold fileDigest
  cases t.readBytes p with
  | error e => simp
  | ok bytes => simp [eq_comm]

/-- There is a digest of all files exactly if all can be read, and it has their entries in order. -/
theorem treeDigest_eq_ok_iff {t : FileTree} {l : ArtifactLayout} {d : TreeDigest} :
    l.treeDigest t = .ok d ↔
      ∃ contents, l.Contents t contents ∧ d.entries = entriesOf l.listed contents := by
  unfold treeDigest Contents listed
  generalize l.headers ++ l.libraries = files
  suffices general : ∀ start : TreeDigest,
      files.foldlM (fun digest file => do
        return digest.add file.text (← fileDigest t (l.root.join file))) start = .ok d ↔
      ∃ contents, files.Forall₂ (fun file bytes => t.readBytes (l.root.join file) = .ok bytes)
        contents ∧ d.entries = start.entries ++ entriesOf files contents by
    simpa using general {}
  induction files with
  | nil =>
      rintro ⟨entries⟩
      rcases d with ⟨last⟩
      simp [entriesOf, pure, Except.pure, eq_comm]
  | cons file files induction =>
      intro start
      rw [List.foldlM_cons, bind_eq_ok_iff]
      constructor
      · rintro ⟨next, entered, rest⟩
        obtain ⟨digest, digested, done⟩ := bind_eq_ok_iff.mp entered
        cases done
        obtain ⟨bytes, read, rfl⟩ := fileDigest_eq_ok_iff.mp digested
        obtain ⟨contents, reads, entries⟩ := (induction _).mp rest
        refine ⟨bytes :: contents, .cons read reads, ?_⟩
        simp [entries, entriesOf, TreeDigest.add]
      · rintro ⟨_, _ | ⟨read, reads⟩, entries⟩
        refine ⟨_, bind_eq_ok_iff.mpr ⟨_, fileDigest_eq_ok_iff.mpr ⟨_, read, rfl⟩, rfl⟩,
          (induction _).mpr ⟨_, reads, ?_⟩⟩
        simp [entries, entriesOf, TreeDigest.add]

theorem fingerprint_eq_ok_iff {t : FileTree} {l : ArtifactLayout} {fingerprint : String} :
    l.fingerprint t = .ok fingerprint ↔ ∃ d, l.treeDigest t = .ok d ∧ d.hex = fingerprint := by
  unfold ArtifactLayout.fingerprint
  cases l.treeDigest t with
  | error failure => simp [Except.map]
  | ok d => simp [Except.map]

theorem exists_treeDigest {t : FileTree} {l : ArtifactLayout}
    (readable : ∀ file ∈ l.listed, ∃ bytes, t.readBytes (l.root.join file) = .ok bytes) :
    ∃ d, l.treeDigest t = .ok d ∧ d.entries.map (·.1) = l.listed.map Path.text := by
  obtain ⟨contents, reads, names⟩ : ∃ contents, l.Contents t contents ∧
      (entriesOf l.listed contents).map (·.1) = l.listed.map Path.text := by
    unfold Contents
    generalize l.listed = files at readable
    induction files with
    | nil => exact ⟨[], .nil, rfl⟩
    | cons file files induction =>
        obtain ⟨bytes, read⟩ := readable file List.mem_cons_self
        obtain ⟨contents, reads, names⟩ :=
          induction fun other member => readable other (List.mem_cons_of_mem file member)
        exact ⟨bytes :: contents, .cons read reads, congrArg (file.text :: ·) names⟩
  exact ⟨⟨entriesOf l.listed contents⟩, treeDigest_eq_ok_iff.mpr ⟨contents, reads, rfl⟩, names⟩

/-- Two packages, each in its own tree, list the same paths in the same order, and the files at
each position hold the same bytes. -/
def SameFiles (t t' : FileTree) (l l' : ArtifactLayout) : Prop :=
  l.listed.Forall₂ (fun file file' => file.text = file'.text ∧ ∃ bytes,
    t.readBytes (l.root.join file) = .ok bytes ∧ t'.readBytes (l'.root.join file') = .ok bytes)
    l'.listed

/-- The digest collides on what is hashed for two packages: on the contents of the files at one
position, or on the streams of their entries. -/
def Collision (t t' : FileTree) (l l' : ArtifactLayout) : Prop :=
  (∃ contents contents', l.Contents t contents ∧ l'.Contents t' contents' ∧
    ∃ pair ∈ contents.zip contents', Sha256.Collides pair.1 pair.2) ∨
  ∃ d d', l.treeDigest t = .ok d ∧ l'.treeDigest t' = .ok d' ∧ Sha256.Collides d.stream d'.stream

section

variable {t t' : FileTree} {l l' : ArtifactLayout}

/-- Equal entries come from equal files, unless two contents collide. -/
theorem forall₂_or_collides {files files' : List Path} {contents contents' : List ByteArray}
    (reads : files.Forall₂ (fun file bytes => t.readBytes (l.root.join file) = .ok bytes) contents)
    (reads' : files'.Forall₂ (fun file bytes => t'.readBytes (l'.root.join file) = .ok bytes)
      contents')
    (same : entriesOf files contents = entriesOf files' contents') :
    (∃ pair ∈ contents.zip contents', Sha256.Collides pair.1 pair.2) ∨
      files.Forall₂ (fun file file' => file.text = file'.text ∧ ∃ bytes,
        t.readBytes (l.root.join file) = .ok bytes ∧
          t'.readBytes (l'.root.join file') = .ok bytes) files' := by
  induction reads generalizing files' contents' with
  | nil =>
      cases reads' with
      | nil => exact Or.inr .nil
      | cons => simp [entriesOf] at same
  | cons read reads induction =>
      cases reads' with
      | nil => simp [entriesOf] at same
      | cons read' reads' =>
          obtain ⟨entry, entries⟩ := List.cons.inj same
          obtain ⟨name, digest⟩ := Prod.mk.inj entry
          rcases induction reads' entries with ⟨pair, member, collides⟩ | rest
          · exact Or.inl ⟨pair, List.mem_cons_of_mem _ member, collides⟩
          · rcases Sha256.eq_or_collides digest with rfl | collides
            · exact Or.inr (.cons ⟨name, _, read, read'⟩ rest)
            · exact Or.inl ⟨_, List.mem_cons_self, collides⟩

theorem SameFiles.exists_contents (same : SameFiles t t' l l') :
    ∃ contents, l.Contents t contents ∧ l'.Contents t' contents ∧
      entriesOf l.listed contents = entriesOf l'.listed contents := by
  unfold SameFiles at same
  unfold Contents
  generalize l.listed = files at same
  generalize l'.listed = files' at same
  induction same with
  | nil => exact ⟨[], .nil, .nil, rfl⟩
  | cons here rest induction =>
      obtain ⟨name, bytes, read, read'⟩ := here
      obtain ⟨contents, reads, reads', entries⟩ := induction
      refine ⟨bytes :: contents, .cons read reads, .cons read' reads', ?_⟩
      exact congrArg₂ List.cons (congrArg (·, Sha256.hex bytes) name) entries

theorem nulFree_entriesOf {contents : List ByteArray}
    (free : ∀ file ∈ l.listed, Text.NulFree file.text) :
    ∀ entry ∈ entriesOf l.listed contents, Text.NulFree entry.1 ∧ Text.NulFree entry.2 := by
  intro entry member
  obtain ⟨⟨file, bytes⟩, zipped, rfl⟩ := List.mem_map.mp member
  exact ⟨free file (List.of_mem_zip zipped).1, Sha256.nulFree_hex bytes⟩

end

/-- Two packages with one fingerprint have the same files, path by path and byte by byte, unless
the digest collides on what was hashed for them. The same files have one fingerprint, wherever the
packages are. -/
theorem fingerprint_tells_files (t t' : FileTree) (l l' : ArtifactLayout) :
    ((∀ file ∈ l.listed, Text.NulFree file.text) → (∀ file ∈ l'.listed, Text.NulFree file.text) →
      ∀ fingerprint, l.fingerprint t = .ok fingerprint → l'.fingerprint t' = .ok fingerprint →
        Collision t t' l l' ∨ SameFiles t t' l l') ∧
    (SameFiles t t' l l' →
      ∃ fingerprint, l.fingerprint t = .ok fingerprint ∧ l'.fingerprint t' = .ok fingerprint) := by
  constructor
  · intro free free' fingerprint computed computed'
    obtain ⟨d, digested, rfl⟩ := fingerprint_eq_ok_iff.mp computed
    obtain ⟨d', digested', same⟩ := fingerprint_eq_ok_iff.mp computed'
    obtain ⟨contents, reads, entries⟩ := treeDigest_eq_ok_iff.mp digested
    obtain ⟨contents', reads', entries'⟩ := treeDigest_eq_ok_iff.mp digested'
    rcases Sha256.eq_or_collides same.symm with streams | collides
    · have written : TreeDigest.written d.entries = TreeDigest.written d'.entries := by
        rw [← TreeDigest.toList_stream, ← TreeDigest.toList_stream, streams]
      rw [entries, entries'] at written
      have same_entries := TreeDigest.written_inj (nulFree_entriesOf free)
        (nulFree_entriesOf free') written
      rcases forall₂_or_collides reads reads' same_entries with collides | files
      · exact Or.inl (Or.inl ⟨contents, contents', reads, reads', collides⟩)
      · exact Or.inr files
    · exact Or.inl (Or.inr ⟨d, d', digested, digested', collides⟩)
  · intro same
    obtain ⟨contents, reads, reads', entries⟩ := same.exists_contents
    refine ⟨TreeDigest.hex ⟨entriesOf l.listed contents⟩, fingerprint_eq_ok_iff.mpr ?_,
      fingerprint_eq_ok_iff.mpr ?_⟩
    · exact ⟨_, treeDigest_eq_ok_iff.mpr ⟨contents, reads, rfl⟩, rfl⟩
    · exact ⟨_, treeDigest_eq_ok_iff.mpr ⟨contents, reads', entries⟩, rfl⟩

/-- A tree with one header, in a directory of this name. -/
def smallShelf (dir : Name) : FileTree :=
  .ofEntries [
    ([dir], .directory),
    ([dir, ⟨"shelf.h", by decide⟩], .file "int mini;".toUTF8 false)]

/-- The same header is found in two places, in one as a header and in the other as a library. -/
theorem small_shelves_alike :
    let left := smallShelf ⟨"left", by decide⟩
    let right := smallShelf ⟨"right", by decide⟩
    let l : ArtifactLayout := ⟨⟨"/left"⟩, [⟨"shelf.h"⟩], []⟩
    let l' : ArtifactLayout := ⟨⟨"/right"⟩, [], [⟨"shelf.h"⟩]⟩
    SameFiles left right l l' ∧ (∀ file ∈ l.listed, Text.NulFree file.text) ∧
      (∀ file ∈ l'.listed, Text.NulFree file.text) ∧
      ∃ fingerprint, l.fingerprint left = .ok fingerprint ∧
        l'.fingerprint right = .ok fingerprint ∧
        (Collision left right l l' ∨ SameFiles left right l l') := by
  intro left right l l'
  have same : SameFiles left right l l' :=
    .cons ⟨rfl, "int mini;".toUTF8, by decide +kernel, by decide +kernel⟩ .nil
  have free : ∀ file ∈ l.listed, Text.NulFree file.text := by decide
  have free' : ∀ file ∈ l'.listed, Text.NulFree file.text := by decide
  obtain ⟨told, shared⟩ := fingerprint_tells_files left right l l'
  obtain ⟨fingerprint, computed, computed'⟩ := shared same
  exact ⟨same, free, free', fingerprint, computed, computed',
    told free free' fingerprint computed computed'⟩

end ArtifactLayout
end PackageBuild
