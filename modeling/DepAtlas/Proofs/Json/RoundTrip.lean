import DepAtlas.Proofs.Json.Scalars

/-!
What is written is read back: the text of a value that is not nested too deeply is read as the value
itself, but for numbers that do not fit in 64 bits.
-/

namespace DepAtlas.Json

mutual

/-- Whether a value has at most so many levels, and holds no number but whole ones. -/
def fits : Nat → Json → Bool
  | _, null => true
  | _, bool _ => true
  | _, int _ => true
  | _, real _ => false
  | _, str _ => true
  | 0, arr _ => false
  | depth + 1, arr items => itemsFit depth items
  | 0, obj _ => false
  | depth + 1, obj members => membersFit depth members
  | _, unreadable => false

def itemsFit : Nat → List Json → Bool
  | _, [] => true
  | depth, item :: items => fits depth item && itemsFit depth items

def membersFit : Nat → List (String × Json) → Bool
  | _, [] => true
  | depth, (_, value) :: members => fits depth value && membersFit depth members

end

mutual

/-- What a written value is read as. -/
def asRead : Json → Json
  | null => null
  | bool value => bool value
  | int value => ofWritten value
  | real text => real text
  | str value => str value
  | arr items => arr (itemsAsRead items)
  | obj members => obj (membersAsRead members)
  | unreadable => unreadable

def itemsAsRead : List Json → List Json
  | [] => []
  | item :: items => asRead item :: itemsAsRead items

def membersAsRead : List (String × Json) → List (String × Json)
  | [] => []
  | (name, value) :: members => (name, asRead value) :: membersAsRead members

end

mutual

/-- Number of calls in which a written value is read. -/
def cost : Json → Nat
  | str value => value.toList.length + 1
  | arr items => itemsCost items + 1
  | obj members => membersCost members + 1
  | null | bool _ | int _ | real _ | unreadable => 1

def itemsCost : List Json → Nat
  | [] => 0
  | item :: items => cost item + itemsCost items + 1

def membersCost : List (String × Json) → Nat
  | [] => 0
  | (name, value) :: members => name.toList.length + cost value + membersCost members + 1

end

theorem itemsAsRead_eq_map (items : List Json) : itemsAsRead items = items.map asRead := by
  induction items with
  | nil => rfl
  | cons item items ih => rw [itemsAsRead, List.map_cons, ih]

theorem skipSpace_of_not_space {c : Char} (text : Input) (ink : isSpace c = false) :
    skipSpace (some c :: text) = some c :: text := by
  simp [skipSpace, ink]

theorem skipSpace_of_space {c : Char} (text : Input) (space : isSpace c = true) :
    skipSpace (some c :: text) = skipSpace text := by
  simp [skipSpace, space]

theorem skipSpace_lineBreak (layout : Layout) (level : Nat) (text : Text) :
    skipSpace (inputOf (layout.lineBreak level text)) = skipSpace (inputOf text) := by
  have blanks (count : Nat) :
      skipSpace (inputOf (List.replicate count ' ' ++ text)) = skipSpace (inputOf text) := by
    induction count with
    | zero => rfl
    | succ count ih =>
      rw [List.replicate_succ, List.cons_append, inputOf_cons, skipSpace_of_space _ (by decide), ih]
  cases layout with
  | compact => rfl
  | pretty =>
    rw [Layout.lineBreak, inputOf_cons, skipSpace_of_space _ (by decide)]
    exact blanks _

theorem readValue?_congr {first second : Input} (same : skipSpace first = skipSpace second)
    (fuel depth : Nat) : readValue? fuel depth first = readValue? fuel depth second := by
  cases fuel with
  | zero => rw [readValue?, readValue?]
  | succ fuel => rw [readValue?, readValue?, same]

theorem readItems?_congr {first second : Input} (same : skipSpace first = skipSpace second)
    (fuel depth : Nat) : readItems? fuel depth first = readItems? fuel depth second := by
  cases fuel with
  | zero => rw [readItems?, readItems?]
  | succ fuel => rw [readItems?, readItems?, readValue?_congr same]

theorem readMembers?_congr {first second : Input} (same : skipSpace first = skipSpace second)
    (fuel depth : Nat) : readMembers? fuel depth first = readMembers? fuel depth second := by
  cases fuel with
  | zero => rw [readMembers?, readMembers?]
  | succ fuel => rw [readMembers?, readMembers?, same]

/-- Whether a character can stand at the front of a value. -/
def startsValue (c : Char) : Bool :=
  c.isDigit || ['-', '"', '[', '\x7b', 'n', 't', 'f'].contains c

theorem exists_start_write (layout : Layout) (level depth : Nat) (json : Json) (rest : Text)
    (fit : fits depth json) : ∃ c text, write layout level json rest = c :: text ∧ startsValue c := by
  cases json with
  | null => exact ⟨'n', _, rfl, by decide⟩
  | bool value => cases value <;> exact ⟨_, _, rfl, by decide⟩
  | int value =>
    obtain ⟨c, text, written, start⟩ := exists_digit_toString value
    refine ⟨c, text ++ rest, by rw [write, written, List.cons_append], ?_⟩
    rcases start with digit | rfl
    · simp [startsValue, digit]
    · decide
  | real text => simp [fits] at fit
  | str value => exact ⟨'"', _, rfl, by decide⟩
  | arr items => cases items <;> exact ⟨'[', _, rfl, by decide⟩
  | obj members => cases members <;> exact ⟨'\x7b', _, rfl, by decide⟩
  | unreadable => simp [fits] at fit

theorem isSpace_of_startsValue {c : Char} (start : startsValue c) : isSpace c = false := by
  apply eq_false_of_ne_true
  intro space
  simp only [isSpace, Bool.or_eq_true, beq_iff_eq] at space
  rcases space with ((rfl | rfl) | rfl) | rfl <;> exact absurd start (by decide)

theorem skipSpace_write {layout : Layout} {level depth : Nat} {json : Json} {rest : Text}
    (fit : fits depth json) :
    skipSpace (inputOf (write layout level json rest)) = inputOf (write layout level json rest) := by
  obtain ⟨c, text, written, start⟩ := exists_start_write layout level depth json rest fit
  rw [written, inputOf_cons]
  exact skipSpace_of_not_space _ (isSpace_of_startsValue start)

theorem skipSpace_writeString (value : String) (rest : Text) :
    skipSpace (inputOf (writeString value rest)) = inputOf (writeString value rest) :=
  skipSpace_of_not_space _ (by decide)

theorem endsNumber_lineBreak (layout : Layout) (level : Nat) {text : Text} (ends : endsNumber text) :
    endsNumber (layout.lineBreak level text) := by
  cases layout with
  | compact => exact ends
  | pretty => exact (by decide : endsNumber ['\n'])

theorem endsNumber_writeItems (layout : Layout) (level : Nat) (items : List Json) (rest : Text) :
    endsNumber (writeItems layout level items rest) := by
  cases items with
  | nil => exact endsNumber_lineBreak layout level (by decide : endsNumber [']'])
  | cons => exact (by decide : endsNumber [','])

theorem endsNumber_writeMembers (layout : Layout) (level : Nat) (members : List (String × Json))
    (rest : Text) : endsNumber (writeMembers layout level members rest) := by
  cases members with
  | nil => exact endsNumber_lineBreak layout level (by decide : endsNumber ['\x7d'])
  | cons => exact (by decide : endsNumber [','])

theorem readValue?_int (value : Int) (fuel depth : Nat) {rest : Text} (ends : endsNumber rest) :
    readValue? (fuel + 1) depth (inputOf ((toString value).toList ++ rest)) =
      some (ofWritten value, inputOf rest) := by
  obtain ⟨c, text, written, start⟩ := exists_digit_toString value
  have number := readNumber?_toString value ends
  have ink : isSpace c = false := by
    apply isSpace_of_startsValue
    rcases start with digit | rfl
    · simp [startsValue, digit]
    · decide
  rw [written, List.cons_append, inputOf_cons] at number ⊢
  rw [readValue?, skipSpace_of_not_space _ ink]
  split
  case h_7 => exact number
  all_goals
    have head := Option.some.inj (List.cons.inj ‹_›).1
    rw [head] at start
    exact absurd start (by decide)

theorem readValue?_str (value : String) {fuel : Nat} (depth : Nat) (rest : Text)
    (enough : value.toList.length < fuel + 1) :
    readValue? (fuel + 1) depth (inputOf (writeString value rest)) =
      some (.str value, inputOf rest) := by
  rw [writeString, inputOf_cons, readValue?, skipSpace_of_not_space _ (by decide)]
  simp only [readString?_written value (fuel + 1) rest enough, Option.map_some, ofText]

theorem readWord?_written (word : String) (value : Json) (rest : Text) :
    readWord? word value (inputOf (word.toList ++ rest)) = some (value, inputOf rest) := by
  have front : (word.toList.map some).isPrefixOf (inputOf (word.toList ++ rest)) := by
    rw [inputOf_append, List.isPrefixOf_iff_prefix]
    exact List.prefix_append _ _
  have after : (inputOf (word.toList ++ rest)).drop word.length = inputOf rest := by
    rw [inputOf_append, List.drop_left']
    rw [length_inputOf, String.length_toList]
  rw [readWord?, if_pos front, after]

theorem ofMembers_some (members : List (String × Json)) :
    ofMembers (members.map fun (name, value) => (some name, value)) = .obj members := by
  have all : members.mapM some = some members := by
    induction members with
    | nil => rfl
    | cons member members ih => rw [List.mapM_cons, ih]; rfl
  unfold ofMembers
  rw [List.mapM_map]
  simp only [Function.comp_def, Option.map_some]
  rw [all]

/-- The items of an array from behind its next item on. -/
def afterItem? (fuel depth : Nat) (item : Json) (rest : Input) : Option (List Json × Input) :=
  match skipSpace rest with
  | some ',' :: rest => do
    let (items, rest) ← readItems? fuel depth rest
    return (item :: items, rest)
  | some ']' :: rest => return ([item], rest)
  | _ => none

theorem readItems?_of_value {fuel depth : Nat} {input rest : Input} {item : Json}
    (read : readValue? fuel depth input = some (item, rest)) :
    readItems? (fuel + 1) depth input = afterItem? fuel depth item rest := by
  rw [readItems?, read]
  rfl

/-- The members of an object from behind its next member on. -/
def afterMember? (fuel depth : Nat) (member : Option String × Json) (rest : Input) :
    Option (List (Option String × Json) × Input) :=
  match skipSpace rest with
  | some ',' :: rest => do
    let (members, rest) ← readMembers? fuel depth rest
    return (member :: members, rest)
  | some '\x7d' :: rest => return ([member], rest)
  | _ => none

theorem readMembers?_of_value (layout : Layout) {fuel depth : Nat} {name : String} {text : Text}
    {value : Json} {rest : Input} (enough : name.toList.length < fuel + 1)
    (read : readValue? fuel depth (inputOf text) = some (value, rest)) :
    readMembers? (fuel + 1) depth (inputOf (writeString name (layout.colon text))) =
      afterMember? fuel depth (some name, value) rest := by
  rw [writeString, inputOf_cons, readMembers?, skipSpace_of_not_space _ (by decide)]
  simp only [readString?_written name (fuel + 1) _ enough, Option.bind_eq_bind, Option.bind_some]
  cases layout with
  | compact =>
    rw [Layout.colon, inputOf_cons, skipSpace_of_not_space _ (by decide)]
    simp only [read, Option.bind_some]
    rfl
  | pretty =>
    have spaced : skipSpace (some ' ' :: inputOf text) = skipSpace (inputOf text) :=
      skipSpace_of_space _ (by decide)
    rw [Layout.colon, inputOf_cons, inputOf_cons, skipSpace_of_not_space _ (by decide)]
    simp only [readValue?_congr spaced, read, Option.bind_some]
    rfl

mutual

theorem readValue?_write (layout : Layout) (level fuel depth : Nat) (json : Json) (rest : Text)
    (fit : fits depth json) (enough : cost json ≤ fuel) (ends : endsNumber rest) :
    readValue? fuel depth (inputOf (write layout level json rest)) =
      some (asRead json, inputOf rest) := by
  have positive : 0 < cost json := by
    cases json <;> simp [cost]
  obtain ⟨fuel, rfl⟩ := Nat.exists_eq_succ_of_ne_zero (Nat.ne_of_gt (Nat.lt_of_lt_of_le positive enough))
  match json, depth with
  | null, _ =>
    rw [write, asRead, ← readWord?_written "null" .null rest]
    rfl
  | bool true, _ =>
    rw [write, asRead, ← readWord?_written "true" (.bool true) rest]
    rfl
  | bool false, _ =>
    rw [write, asRead, ← readWord?_written "false" (.bool false) rest]
    rfl
  | int value, _ => exact readValue?_int value fuel _ ends
  | real _, _ => simp [fits] at fit
  | str value, _ => exact readValue?_str value _ rest enough
  | arr [], 0 => simp [fits] at fit
  | arr [], depth + 1 => rfl
  | arr (item :: items), 0 => simp [fits] at fit
  | arr (item :: items), depth + 1 =>
    simp only [fits, itemsFit, Bool.and_eq_true] at fit
    simp only [cost, itemsCost, Nat.succ_eq_add_one] at enough
    obtain ⟨fuel, rfl⟩ := Nat.exists_eq_succ_of_ne_zero (show fuel ≠ 0 by omega)
    have first := readValue?_write layout (level + 1) fuel depth item
      (writeItems layout level items rest) fit.1 (by omega) (endsNumber_writeItems _ _ _ _)
    have others := afterItem?_writeItems layout level fuel depth (asRead item) items rest fit.2 (by omega)
    have read := (readItems?_of_value first).trans others
    -- No value starts with the bracket that would close an empty list.
    obtain ⟨c, text, written, start⟩ := exists_start_write layout (level + 1) depth item
      (writeItems layout level items rest) fit.1
    rw [write, inputOf_cons, readValue?, skipSpace_of_not_space _ (by decide)]
    simp only [skipSpace_lineBreak, skipSpace_write fit.1]
    rw [written, inputOf_cons] at read ⊢
    split
    case h_1 closing =>
      rw [Option.some.inj (List.cons.inj closing).1] at start
      exact absurd start (by decide)
    case h_2 => simp [read, within, asRead, itemsAsRead]
  | obj [], 0 => simp [fits] at fit
  | obj [], depth + 1 => rfl
  | obj (member :: members), 0 => simp [fits] at fit
  | obj ((name, value) :: members), depth + 1 =>
    simp only [fits, membersFit, Bool.and_eq_true] at fit
    simp only [cost, membersCost, Nat.succ_eq_add_one] at enough
    obtain ⟨fuel, rfl⟩ := Nat.exists_eq_succ_of_ne_zero (show fuel ≠ 0 by omega)
    have first := readValue?_write layout (level + 1) fuel depth value
      (writeMembers layout level members rest) fit.1 (by omega) (endsNumber_writeMembers _ _ _ _)
    have others := afterMember?_writeMembers layout level fuel depth (some name, asRead value) members
      rest fit.2 (by omega)
    have read := (readMembers?_of_value layout (by omega) first).trans others
    rw [write, inputOf_cons, readValue?, skipSpace_of_not_space _ (by decide)]
    simp only [skipSpace_lineBreak, writeMember, skipSpace_writeString]
    rw [writeString, inputOf_cons] at read ⊢
    have names := ofMembers_some (membersAsRead ((name, value) :: members))
    rw [membersAsRead, List.map_cons] at names
    split
    case h_1 closing => cases closing
    case h_2 =>
      simp only [Nat.add_sub_cancel, read, Option.map_some, names, within, Nat.succ_ne_zero, if_false,
        asRead, membersAsRead]
  | unreadable, _ => simp [fits] at fit

theorem afterItem?_writeItems (layout : Layout) (level fuel depth : Nat) (item : Json)
    (items : List Json) (rest : Text) (fit : itemsFit depth items) (enough : itemsCost items ≤ fuel) :
    afterItem? fuel depth item (inputOf (writeItems layout level items rest)) =
      some (item :: itemsAsRead items, inputOf rest) := by
  match items with
  | [] =>
    rw [afterItem?, writeItems, skipSpace_lineBreak]
    rfl
  | next :: items =>
    simp only [itemsFit, Bool.and_eq_true] at fit
    simp only [itemsCost] at enough
    obtain ⟨fuel, rfl⟩ := Nat.exists_eq_succ_of_ne_zero (show fuel ≠ 0 by omega)
    have first := readValue?_write layout (level + 1) fuel depth next
      (writeItems layout level items rest) fit.1 (by omega) (endsNumber_writeItems _ _ _ _)
    have others := afterItem?_writeItems layout level fuel depth (asRead next) items rest fit.2 (by omega)
    have read := (readItems?_of_value first).trans others
    rw [afterItem?, writeItems, inputOf_cons, skipSpace_of_not_space _ (by decide)]
    simp only [readItems?_congr (skipSpace_lineBreak layout (level + 1) _), Nat.succ_eq_add_one, read]
    rfl

theorem afterMember?_writeMembers (layout : Layout) (level fuel depth : Nat)
    (member : Option String × Json) (members : List (String × Json)) (rest : Text)
    (fit : membersFit depth members) (enough : membersCost members ≤ fuel) :
    afterMember? fuel depth member (inputOf (writeMembers layout level members rest)) =
      some (member :: (membersAsRead members).map fun (name, value) => (some name, value),
        inputOf rest) := by
  match members with
  | [] =>
    rw [afterMember?, writeMembers, skipSpace_lineBreak]
    rfl
  | (name, value) :: members =>
    simp only [membersFit, Bool.and_eq_true] at fit
    simp only [membersCost] at enough
    obtain ⟨fuel, rfl⟩ := Nat.exists_eq_succ_of_ne_zero (show fuel ≠ 0 by omega)
    have first := readValue?_write layout (level + 1) fuel depth value
      (writeMembers layout level members rest) fit.1 (by omega) (endsNumber_writeMembers _ _ _ _)
    have others := afterMember?_writeMembers layout level fuel depth (some name, asRead value) members
      rest fit.2 (by omega)
    have read := (readMembers?_of_value layout (by omega) first).trans others
    rw [afterMember?, writeMembers, inputOf_cons, skipSpace_of_not_space _ (by decide)]
    simp only [readMembers?_congr (skipSpace_lineBreak layout (level + 1) _), Nat.succ_eq_add_one,
      writeMember, read]
    rfl

end

theorem length_le_flatMap_escapeChar (text : Text) :
    text.length ≤ (text.flatMap escapeChar).length := by
  induction text with
  | nil => exact Nat.le_refl _
  | cons c text ih =>
    have escaped : 0 < (escapeChar c).length := by
      unfold escapeChar
      repeat' split
      all_goals simp
    rw [List.flatMap_cons, List.length_append, List.length_cons]
    omega

theorem length_writeString (value : String) (rest : Text) :
    value.toList.length + 2 + rest.length ≤ (writeString value rest).length := by
  have escaped := length_le_flatMap_escapeChar value.toList
  simp only [writeString, List.length_cons, List.length_append]
  omega

theorem length_lineBreak (layout : Layout) (level : Nat) (rest : Text) :
    rest.length ≤ (layout.lineBreak level rest).length := by
  cases layout with
  | compact => exact Nat.le_refl _
  | pretty =>
    simp only [Layout.lineBreak, List.length_cons, List.length_append]
    omega

theorem length_colon (layout : Layout) (rest : Text) :
    rest.length + 1 ≤ (layout.colon rest).length := by
  cases layout <;> simp [Layout.colon]

mutual

theorem cost_le_length (layout : Layout) (level depth : Nat) (json : Json) (rest : Text)
    (fit : fits depth json) : cost json + rest.length ≤ (write layout level json rest).length := by
  match json, depth with
  | null, _ =>
    simp only [write, cost, List.length_append]
    exact Nat.add_le_add_right (by decide) _
  | bool true, _ =>
    simp only [write, cost, List.length_append]
    exact Nat.add_le_add_right (by decide) _
  | bool false, _ =>
    simp only [write, cost, List.length_append]
    exact Nat.add_le_add_right (by decide) _
  | int value, _ =>
    obtain ⟨c, text, written, -⟩ := exists_digit_toString value
    rw [write, cost, written, List.length_append, List.length_cons]
    omega
  | real _, _ => simp [fits] at fit
  | str value, _ =>
    have string := length_writeString value rest
    simp only [write, cost]
    omega
  | arr _, 0 => simp [fits] at fit
  | arr [], depth + 1 =>
    simp only [write, cost, itemsCost, List.length_cons]
    omega
  | arr (item :: items), depth + 1 =>
    simp only [fits, itemsFit, Bool.and_eq_true] at fit
    have first := cost_le_length layout (level + 1) depth item (writeItems layout level items rest) fit.1
    have others := itemsCost_le_length layout level depth items rest fit.2
    have broken := length_lineBreak layout (level + 1)
      (write layout (level + 1) item (writeItems layout level items rest))
    simp only [write, cost, itemsCost, List.length_cons]
    omega
  | obj _, 0 => simp [fits] at fit
  | obj [], depth + 1 =>
    simp only [write, cost, membersCost, List.length_cons]
    omega
  | obj ((name, value) :: members), depth + 1 =>
    simp only [fits, membersFit, Bool.and_eq_true] at fit
    have first := cost_le_length layout (level + 1) depth value
      (writeMembers layout level members rest) fit.1
    have others := membersCost_le_length layout level depth members rest fit.2
    have broken := length_lineBreak layout (level + 1)
      (writeMember layout (level + 1) (name, value) (writeMembers layout level members rest))
    have named := length_writeString name
      (layout.colon (write layout (level + 1) value (writeMembers layout level members rest)))
    have apart := length_colon layout
      (write layout (level + 1) value (writeMembers layout level members rest))
    simp only [write, writeMember, cost, membersCost, List.length_cons] at broken ⊢
    omega
  | unreadable, _ => simp [fits] at fit

theorem itemsCost_le_length (layout : Layout) (level depth : Nat) (items : List Json) (rest : Text)
    (fit : itemsFit depth items) :
    itemsCost items + rest.length + 1 ≤ (writeItems layout level items rest).length := by
  match items with
  | [] =>
    have broken := length_lineBreak layout level (']' :: rest)
    simp only [writeItems, itemsCost, List.length_cons] at broken ⊢
    omega
  | item :: items =>
    simp only [itemsFit, Bool.and_eq_true] at fit
    have first := cost_le_length layout (level + 1) depth item (writeItems layout level items rest) fit.1
    have others := itemsCost_le_length layout level depth items rest fit.2
    have broken := length_lineBreak layout (level + 1)
      (write layout (level + 1) item (writeItems layout level items rest))
    simp only [writeItems, itemsCost, List.length_cons]
    omega

theorem membersCost_le_length (layout : Layout) (level depth : Nat) (members : List (String × Json))
    (rest : Text) (fit : membersFit depth members) :
    membersCost members + rest.length + 1 ≤ (writeMembers layout level members rest).length := by
  match members with
  | [] =>
    have broken := length_lineBreak layout level ('\x7d' :: rest)
    simp only [writeMembers, membersCost, List.length_cons] at broken ⊢
    omega
  | (name, value) :: members =>
    simp only [membersFit, Bool.and_eq_true] at fit
    have first := cost_le_length layout (level + 1) depth value
      (writeMembers layout level members rest) fit.1
    have others := membersCost_le_length layout level depth members rest fit.2
    have broken := length_lineBreak layout (level + 1)
      (writeMember layout (level + 1) (name, value) (writeMembers layout level members rest))
    have named := length_writeString name
      (layout.colon (write layout (level + 1) value (writeMembers layout level members rest)))
    have apart := length_colon layout
      (write layout (level + 1) value (writeMembers layout level members rest))
    simp only [writeMembers, writeMember, membersCost, List.length_cons] at broken ⊢
    omega

end

/-- The text of a value is read as the value, but for numbers that do not fit in 64 bits. -/
theorem read?_write (layout : Layout) (json : Json) (fit : fits maxDepth json) :
    read? (inputOf (write layout 0 json [])) = some (asRead json) := by
  have enough := cost_le_length layout 0 maxDepth json [] fit
  rw [List.length_nil, Nat.add_zero] at enough
  have read := readValue?_write layout 0 ((inputOf (write layout 0 json [])).length + 1) maxDepth json []
    fit (by rw [length_inputOf]; omega) rfl
  rw [read?, read]
  rfl

theorem writeString_append (value : String) (rest more : Text) :
    writeString value rest ++ more = writeString value (rest ++ more) := by
  simp [writeString]

theorem lineBreak_append (layout : Layout) (level : Nat) (rest more : Text) :
    layout.lineBreak level rest ++ more = layout.lineBreak level (rest ++ more) := by
  cases layout <;> simp [Layout.lineBreak]

theorem colon_append (layout : Layout) (rest more : Text) :
    layout.colon rest ++ more = layout.colon (rest ++ more) := by
  cases layout <;> rfl

mutual

/-- A writer puts its value in front of the text that follows, and does not look at that text. -/
theorem write_append (layout : Layout) (level : Nat) (json : Json) (rest more : Text) :
    write layout level json rest ++ more = write layout level json (rest ++ more) := by
  match json with
  | null | unreadable | bool true | bool false | int _ | real _ => simp only [write, List.append_assoc]
  | str value => exact writeString_append value rest more
  | arr [] | obj [] => rfl
  | arr (item :: items) =>
    simp only [write, List.cons_append, lineBreak_append]
    rw [write_append, writeItems_append]
  | obj ((name, value) :: members) =>
    simp only [write, writeMember, List.cons_append, lineBreak_append, writeString_append, colon_append]
    rw [write_append, writeMembers_append]

theorem writeItems_append (layout : Layout) (level : Nat) (items : List Json) (rest more : Text) :
    writeItems layout level items rest ++ more = writeItems layout level items (rest ++ more) := by
  match items with
  | [] => simp only [writeItems, lineBreak_append, List.cons_append]
  | item :: items =>
    simp only [writeItems, List.cons_append, lineBreak_append]
    rw [write_append, writeItems_append]

theorem writeMembers_append (layout : Layout) (level : Nat) (members : List (String × Json))
    (rest more : Text) :
    writeMembers layout level members rest ++ more = writeMembers layout level members (rest ++ more) := by
  match members with
  | [] => simp only [writeMembers, lineBreak_append, List.cons_append]
  | (name, value) :: members =>
    simp only [writeMembers, writeMember, List.cons_append, lineBreak_append, writeString_append,
      colon_append]
    rw [write_append, writeMembers_append]

end

/-- The text of a value on lines of its own is read as the value. -/
theorem parse?_pretty_line (json : Json) (fit : fits maxDepth json) :
    parse? (json.pretty ++ "\n") = some (asRead json) := by
  have input : (json.pretty ++ "\n").toList = write .pretty 0 json ['\n'] := by
    rw [String.toList_append, pretty, String.toList_ofList]
    exact write_append .pretty 0 json [] ['\n']
  have enough := cost_le_length .pretty 0 maxDepth json ['\n'] fit
  have read := readValue?_write .pretty 0 ((inputOf (write .pretty 0 json ['\n'])).length + 1) maxDepth json
    ['\n'] fit (by rw [length_inputOf]; omega) rfl
  rw [parse?, input]
  change read? (inputOf (write .pretty 0 json ['\n'])) = _
  rw [read?, read]
  rfl

end DepAtlas.Json
