import DepAtlas.Proofs.Toml.Values

/-!
A document of sections is read as it was written: the statements that are found in the text are one for each
header and entry, and they build one table for each section.
-/

namespace DepAtlas.Toml

/-- A name that stands as a key without quotation marks. -/
def IsBareKey (name : String) : Prop :=
  name.toList ≠ [] ∧ name.toList.all isBare

instance (name : String) : Decidable (IsBareKey name) :=
  inferInstanceAs (Decidable (_ ∧ _))

/-! Keys -/

theorem startsInk_of_isBare {c : Char} (bare : isBare c) (more : Text) : startsInk (c :: more) := by
  simp only [startsInk, Text.isIndent, Bool.and_eq_true, Bool.not_eq_true', Bool.or_eq_false_iff,
    beq_eq_false_iff_ne, bne_iff_ne]
  refine ⟨⟨⟨⟨?_, ?_⟩, ?_⟩, ?_⟩, ?_⟩ <;> (rintro rfl; cases bare)

theorem IsBareKey.exists_start {name : String} (bare : IsBareKey name) :
    ∃ c more, name.toList = c :: more ∧ isBare c := by
  cases letters : name.toList with
  | nil => exact absurd letters bare.1
  | cons c more => exact ⟨c, more, rfl, List.all_eq_true.mp bare.2 c (letters ▸ List.mem_cons_self)⟩

theorem IsBareKey.startsInk {name : String} (bare : IsBareKey name) (rest : Text) :
    startsInk (name.toList ++ rest) := by
  obtain ⟨c, more, letters, isBare⟩ := bare.exists_start
  rw [letters]
  exact startsInk_of_isBare isBare (more ++ rest)

theorem readKeyPart?_bare {name : String} (bare : IsBareKey name) {c : Char} (stops : isBare c = false)
    (rest : Text) : readKeyPart? (name.toList ++ c :: rest) = some (name, c :: rest) := by
  have part : (name.toList ++ c :: rest).takeWhile isBare = name.toList := by
    rw [List.takeWhile_append_of_pos (List.all_eq_true.mp bare.2),
      List.takeWhile_cons_of_neg (by simp [stops]), List.append_nil]
  obtain ⟨d, more, letters, isBare⟩ := bare.exists_start
  have named : String.ofList (d :: more) = name := by rw [← letters, String.ofList_toList]
  rw [letters] at part ⊢
  rw [List.cons_append] at part ⊢
  rw [readKeyPart?, part]
  · simp [named]
  all_goals
    rintro more ⟨⟩
    cases isBare

/-- A key stands alone where no point follows it. -/
theorem readKey?_bare {name : String} (bare : IsBareKey name) {c d : Char} {rest after : Text}
    (stops : isBare c = false) (skips : skipBlanks (c :: rest) = d :: after) (noPoint : d ≠ '.') :
    readKey? (name.toList ++ c :: rest) = some (⟨[], name⟩, d :: after) := by
  have parts : readKeyParts? (maxDepth - 1) (name.toList ++ c :: rest) = some ([name], d :: after) := by
    rw [show maxDepth - 1 = 78 + 1 from rfl, readKeyParts?, skipBlanks_of_ink (bare.startsInk _),
      readKeyPart?_bare bare stops]
    simp only [Option.bind_eq_bind, Option.bind_some, skips]
    split
    · rename_i same
      exact absurd (List.cons.inj same).1 noPoint
    · rfl
  rw [readKey?, parts]
  rfl

/-! Statements -/

theorem endLine?_lineEnd (rest : Text) : endLine? ('\n' :: rest) = some rest :=
  rfl

/-- What an entry of a section says. -/
def Statement.ofEntry (entry : String × Toml) : Statement :=
  .value ⟨[], entry.1⟩ entry.2

theorem readStatement?_entry {entry : String × Toml} (bare : IsBareKey entry.1) {written : Text}
    (isWritten : writeEntry? entry = some written) (rest : Text) :
    readStatement? (written ++ rest) = some (.ofEntry entry, rest) := by
  obtain ⟨value, isValue, rfl⟩ := Option.map_eq_some_iff.mp isWritten
  have text : entry.1.toList ++ [' ', '=', ' '] ++ value ++ ['\n'] ++ rest =
      entry.1.toList ++ ' ' :: '=' :: ' ' :: (value ++ '\n' :: rest) := by simp
  have key : readKey? (entry.1.toList ++ ' ' :: '=' :: ' ' :: (value ++ '\n' :: rest)) =
      some (⟨[], entry.1⟩, '=' :: ' ' :: (value ++ '\n' :: rest)) :=
    readKey?_bare bare (by decide) rfl (by decide)
  have blanks : skipBlanks (' ' :: (value ++ '\n' :: rest)) = value ++ '\n' :: rest :=
    skipBlanks_of_ink (startsInk_of_writeValue isValue _)
  have read : readValue? ((entry.1.toList ++ ' ' :: '=' :: ' ' :: (value ++ '\n' :: rest)).length + 1)
      (maxDepth - 1) (value ++ '\n' :: rest) = some (entry.2, '\n' :: rest) :=
    readValue?_of_writeValue isValue rfl _ 78 (by simp; omega)
  obtain ⟨c, more, letters, isBare⟩ := bare.exists_start
  rw [letters, List.cons_append] at key read
  rw [text, letters, List.cons_append, readStatement?]
  · simp [key, readMark?, blanks, read, endLine?_lineEnd, Statement.ofEntry, -List.length_cons,
      -List.length_append]
  all_goals
    intro other same
    rw [(List.cons.inj same).1] at isBare
    cases isBare

theorem readStatement?_header {name : String} (bare : IsBareKey name) (rest : Text) :
    readStatement? ('[' :: (name.toList ++ ']' :: '\n' :: rest)) = some (.table ⟨[], name⟩, rest) := by
  have key : readKey? (name.toList ++ ']' :: '\n' :: rest) = some (⟨[], name⟩, ']' :: '\n' :: rest) :=
    readKey?_bare bare (by decide) rfl (by decide)
  obtain ⟨c, more, letters, isBare⟩ := bare.exists_start
  rw [letters, List.cons_append] at key ⊢
  rw [readStatement?]
  · simp [key, readMark?, endLine?_lineEnd]
  · rintro other ⟨⟩
    cases isBare

/-! Documents -/

/-- A document whose names and keys need no quotation marks and stand once. -/
structure IsBareDocument (sections : List (String × Entries)) : Prop where
  names : ∀ part ∈ sections, IsBareKey part.1
  distinct : (sections.map (·.1)).Nodup
  keys : ∀ part ∈ sections, ∀ entry ∈ part.2, IsBareKey entry.1
  distinctKeys : ∀ part ∈ sections, (part.2.map (·.1)).Nodup

/-- What a section says: its header, then its entries. -/
def Statement.ofSection (part : String × Entries) : List Statement :=
  .table ⟨[], part.1⟩ :: part.2.map .ofEntry

/-- Whether a text is read as these statements, with any bound that is large enough. -/
def ReadsAs (text : Text) (statements : List Statement) : Prop :=
  ∀ fuel, text.length < fuel → readStatements? fuel text = some statements

namespace ReadsAs

theorem nil : ReadsAs [] [] := by
  intro fuel enough
  obtain ⟨fuel, rfl⟩ := Nat.exists_eq_add_one.mpr (Nat.zero_lt_of_lt enough)
  rfl

theorem lineEnd {rest : Text} {statements : List Statement} (reads : ReadsAs rest statements) :
    ReadsAs ('\n' :: rest) statements := by
  intro fuel enough
  obtain ⟨fuel, rfl⟩ := Nat.exists_eq_add_one.mpr (Nat.zero_lt_of_lt enough)
  exact reads fuel (Nat.lt_of_succ_lt_succ enough)

theorem statement {text rest : Text} {statement : Statement} {statements : List Statement}
    (ink : startsInk text) (read : readStatement? text = some (statement, rest))
    (shorter : rest.length < text.length) (reads : ReadsAs rest statements) :
    ReadsAs text (statement :: statements) := by
  intro fuel enough
  obtain ⟨fuel, rfl⟩ := Nat.exists_eq_add_one.mpr (Nat.zero_lt_of_lt enough)
  have others := reads fuel (by omega)
  cases text with
  | nil => cases ink
  | cons c more =>
    have notLineEnd := lineEnd?_of_ink ink
    rw [readStatements?, skipBlanks_of_ink ink]
    split
    case h_1 none => cases none
    case h_2 comment =>
      rw [comment] at ink
      cases ink
    case h_3 => simp [notLineEnd, read, others]

theorem entries {entries : Entries} {written : List Text} (bare : ∀ entry ∈ entries, IsBareKey entry.1)
    (areWritten : entries.mapM writeEntry? = some written) {rest : Text} {statements : List Statement}
    (reads : ReadsAs rest statements) :
    ReadsAs (written.flatten ++ rest) (entries.map .ofEntry ++ statements) := by
  induction entries generalizing written with
  | nil =>
    cases areWritten
    exact reads
  | cons entry entries ih =>
    rw [List.mapM_cons] at areWritten
    obtain ⟨first, isFirst, areWritten⟩ := Option.bind_eq_some_iff.mp areWritten
    obtain ⟨others, areOthers, areWritten⟩ := Option.bind_eq_some_iff.mp areWritten
    cases areWritten
    have isBare := bare entry List.mem_cons_self
    have more := ih (fun other member => bare other (List.mem_cons_of_mem _ member)) areOthers
    have read := readStatement?_entry isBare isFirst (others.flatten ++ rest)
    obtain ⟨value, -, rfl⟩ := Option.map_eq_some_iff.mp isFirst
    rw [List.flatten_cons, List.append_assoc, List.map_cons, List.cons_append]
    refine statement ?_ read ?_ more
    · simpa using isBare.startsInk _
    · simp only [List.length_append, List.length_cons]
      omega

theorem ofSection {part : String × Entries} {written : Text} (isBare : IsBareKey part.1)
    (bare : ∀ entry ∈ part.2, IsBareKey entry.1) (isWritten : writeSection? part.1 part.2 = some written)
    {rest : Text} {statements : List Statement} (reads : ReadsAs rest statements) :
    ReadsAs (written ++ rest) (Statement.ofSection part ++ statements) := by
  obtain ⟨lines, areLines, isWritten⟩ := Option.bind_eq_some_iff.mp isWritten
  cases isWritten
  have header := readStatement?_header isBare (lines.flatten ++ rest)
  have text : '[' :: part.1.toList ++ [']', '\n'] ++ lines.flatten ++ rest =
      '[' :: (part.1.toList ++ ']' :: '\n' :: (lines.flatten ++ rest)) := by simp
  rw [text]
  refine statement rfl header ?_ (entries bare areLines reads)
  simp only [List.length_append, List.length_cons]
  omega

theorem document {sections : List (String × Entries)} {written : List Text} (bare : IsBareDocument sections)
    (areWritten : (sections.mapM fun part => writeSection? part.1 part.2) = some written) :
    ReadsAs (List.intercalate ['\n'] written) (sections.flatMap Statement.ofSection) := by
  obtain ⟨names, -, keys, -⟩ := bare
  induction sections generalizing written with
  | nil =>
    cases areWritten
    exact nil
  | cons part sections ih =>
    rw [List.mapM_cons] at areWritten
    obtain ⟨first, isFirst, areWritten⟩ := Option.bind_eq_some_iff.mp areWritten
    obtain ⟨others, areOthers, areWritten⟩ := Option.bind_eq_some_iff.mp areWritten
    cases areWritten
    have more := ih areOthers (fun other member => names other (List.mem_cons_of_mem _ member))
      (fun other member => keys other (List.mem_cons_of_mem _ member))
    have isBare := names part List.mem_cons_self
    have areBare := keys part List.mem_cons_self
    rw [List.flatMap_cons]
    cases others with
    | nil =>
      have one := ofSection isBare areBare isFirst more
      simpa [List.intercalate] using one
    | cons second others =>
      have blank := ofSection isBare areBare isFirst more.lineEnd
      simpa [List.intercalate] using blank

end ReadsAs

/-! What the statements build -/

/-- The tables of the sections. -/
def tablesOf (sections : List (String × Entries)) : Entries :=
  sections.map fun part => (part.1, .table .header part.2)

theorem lookup_of_fresh {entries : Entries} {key : String} (fresh : key ∉ entries.map (·.1)) :
    entries.lookup key = none := by
  rw [List.lookup_eq_none_iff]
  intro entry member
  have differ : key ≠ entry.1 := fun same => fresh (same ▸ List.mem_map_of_mem member)
  exact bne_iff_ne.mpr differ

theorem lookup_last {entries : Entries} {key : String} (fresh : key ∉ entries.map (·.1)) (value : Toml) :
    (entries ++ [(key, value)]).lookup key = some value := by
  rw [List.lookup_append, lookup_of_fresh fresh]
  simp

theorem replace_last {entries : Entries} {key : String} (fresh : key ∉ entries.map (·.1)) (old value : Toml) :
    replace key value (entries ++ [(key, old)]) = entries ++ [(key, value)] := by
  have others : entries.map (fun entry => if entry.1 == key then (key, value) else entry) = entries := by
    rw [List.map_congr_left (g := id), List.map_id]
    intro entry member
    have differ : entry.1 ≠ key := fun same => fresh (same ▸ List.mem_map_of_mem member)
    simp [differ]
  rw [replace, List.map_append, others]
  simp

theorem openTable_fresh {entries : Entries} {key : String} (fresh : key ∉ entries.map (·.1)) :
    openTable [] key entries = some (entries ++ [(key, .table .header [])]) := by
  rw [openTable, update, lookup_of_fresh fresh]

theorem insertBelow_last {done child : Entries} {name key : String} (fresh : name ∉ done.map (·.1))
    (free : key ∉ child.map (·.1)) (value : Toml) :
    insertBelow [name] [] key value (done ++ [(name, .table .header child)]) =
      some (done ++ [(name, .table .header (child ++ [(key, value)]))]) := by
  have added : insert [] key value .header child = some (child ++ [(key, value)]) := by
    simp [insert, update, lookup_of_fresh free]
  rw [insertBelow, update, lookup_last fresh]
  simp [update, added, replace_last fresh]

theorem build?_entries {done : Entries} {name : String} (fresh : name ∉ done.map (·.1))
    (child entries : Entries) (distinct : ((child ++ entries).map (·.1)).Nodup) (statements : List Statement) :
    build? (entries.map .ofEntry ++ statements) [name] (done ++ [(name, .table .header child)]) =
      build? statements [name] (done ++ [(name, .table .header (child ++ entries))]) := by
  induction entries generalizing child with
  | nil => rw [List.map_nil, List.nil_append, List.append_nil]
  | cons entry entries ih =>
    have free : entry.1 ∉ child.map (·.1) := by
      rw [List.map_append, List.nodup_append] at distinct
      exact fun member => distinct.2.2 entry.1 member entry.1 (by simp) rfl
    rw [List.append_cons child entry entries] at distinct ⊢
    have others := ih (child ++ [entry]) distinct
    rw [List.map_cons, List.cons_append, Statement.ofEntry, build?, insertBelow_last fresh free,
      Option.bind_some]
    exact others

theorem build?_sections {sections : List (String × Entries)} (done : Entries)
    (distinct : (done.map (·.1) ++ sections.map (·.1)).Nodup)
    (distinctKeys : ∀ part ∈ sections, (part.2.map (·.1)).Nodup) (header : List String) :
    build? (sections.flatMap Statement.ofSection) header done = some (done ++ tablesOf sections) := by
  induction sections generalizing done header with
  | nil => rw [tablesOf, List.map_nil, List.append_nil, List.flatMap_nil, build?]
  | cons part sections ih =>
    have fresh : part.1 ∉ done.map (·.1) := by
      rw [List.nodup_append] at distinct
      exact fun member => distinct.2.2 part.1 member part.1 (by simp) rfl
    have others := ih (done ++ [(part.1, .table .header part.2)]) (by simpa using distinct)
      (fun other member => distinctKeys other (List.mem_cons_of_mem _ member)) [part.1]
    have entries := build?_entries fresh [] part.2 (distinctKeys part List.mem_cons_self)
      (sections.flatMap Statement.ofSection)
    rw [List.nil_append] at entries
    rw [List.flatMap_cons, Statement.ofSection, List.cons_append, build?, openTable_fresh fresh,
      Option.bind_some, List.nil_append, entries, others]
    simp [tablesOf]

theorem write?_noByteOrderMark {sections : List (String × Entries)} {written : List Text}
    (areWritten : (sections.mapM fun part => writeSection? part.1 part.2) = some written) (rest : Text) :
    List.intercalate ['\n'] written ≠ '\uFEFF' :: rest := by
  cases sections with
  | nil =>
    cases areWritten
    nofun
  | cons part sections =>
    rw [List.mapM_cons] at areWritten
    obtain ⟨first, isFirst, areWritten⟩ := Option.bind_eq_some_iff.mp areWritten
    obtain ⟨others, -, areWritten⟩ := Option.bind_eq_some_iff.mp areWritten
    obtain ⟨lines, -, isFirst⟩ := Option.bind_eq_some_iff.mp isFirst
    cases areWritten
    cases isFirst
    cases others <;> simp [List.intercalate]

/-- A document is read as it was written. -/
theorem parse?_of_write? {sections : List (String × Entries)} (bare : IsBareDocument sections) {text : String}
    (isWritten : write? sections = some text) : parse? text = some (tablesOf sections) := by
  obtain ⟨written, areWritten, isText⟩ := Option.bind_eq_some_iff.mp isWritten
  have reads := ReadsAs.document bare areWritten
  have built := build?_sections [] (by simpa using bare.distinct) bare.distinctKeys []
  cases isText
  have statements := reads _ (Nat.lt_add_one _)
  rw [parse?, String.toList_ofList]
  split
  case h_1 same => exact absurd same (write?_noByteOrderMark areWritten _)
  case h_2 => simp [statements, built]

theorem isSome_mapM_iff {α β : Type} {f : α → Option β} {values : List α} :
    (values.mapM f).isSome ↔ ∀ value ∈ values, (f value).isSome := by
  induction values with
  | nil => simp
  | cons value values ih =>
    rw [List.mapM_cons, List.forall_mem_cons, ← ih]
    cases f value <;> cases values.mapM f <;> simp

/-- A document can be written where all its values can. -/
theorem isSome_write?_iff {sections : List (String × Entries)} :
    (write? sections).isSome ↔ ∀ part ∈ sections, ∀ entry ∈ part.2, (writeValue? entry.2).isSome := by
  have each (part : String × Entries) :
      (writeSection? part.1 part.2).isSome ↔ ∀ entry ∈ part.2, (writeValue? entry.2).isSome := by
    have lines : (writeSection? part.1 part.2).isSome ↔ (part.2.mapM writeEntry?).isSome := by
      rw [writeSection?]
      cases part.2.mapM writeEntry? <;> simp
    rw [lines, isSome_mapM_iff]
    simp only [ writeEntry?, Option.isSome_map]
  have document : (write? sections).isSome ↔
      (sections.mapM fun part => writeSection? part.1 part.2).isSome := by
    rw [write?]
    cases sections.mapM fun part => writeSection? part.1 part.2 <;> simp
  rw [document, isSome_mapM_iff]
  simp only [each]

end DepAtlas.Toml
