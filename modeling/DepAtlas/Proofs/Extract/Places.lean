import Mathlib.Data.Nat.Init
import DepAtlas.Proofs.Extract.Blocks
import DepAtlas.Proofs.Extract.Indentation
import DepAtlas.Proofs.Text.Boundary

/-!
The places that are told of a definition. They lie between two characters and are in order, whatever stands in
the text, and the counters that found them never went below zero.
-/

namespace DepAtlas.DefinitionSpan

open Text

/-- Reading a text, a counter of what is open does not go below zero. -/
def StaysOpen (opens closes : Char) (text : Text) : Prop :=
  ∀ front, front <+: text → front.count closes ≤ front.count opens

/-- The places of a definition that begins at `start` and whose name ends at `nameEnd` can be cut at and are
in order. -/
structure Sound (text : Text) (start nameEnd : Nat) (span : DefinitionSpan) : Prop where
  start_le : start ≤ span.signatureEnd
  signatureEnd_le : span.signatureEnd ≤ span.bodyStart
  bodyStart_le : span.bodyStart ≤ span.bodyEnd
  bodyEnd_le : span.bodyEnd ≤ byteLength text
  signatureEnd : isBoundary span.signatureEnd text = true
  bodyStart : isBoundary span.bodyStart text = true
  bodyEnd : isBoundary span.bodyEnd text = true
  paramsEnd : ∀ place, span.paramsEnd = some place →
    nameEnd < place ∧ place < span.signatureEnd ∧ isBoundary place text = true ∧
      isBoundary (place + 1) text = true

/-- The counters that found the places never went below zero: those of parentheses and of braces in a brace
language, and the one of a parameter list in an indented language. -/
def Counted (style : BodyStyle) (text : Text) (start nameEnd : Nat) (span : DefinitionSpan) : Prop :=
  match style with
  | .braces =>
    StaysOpen '(' ')' (slice text start span.signatureEnd) ∧
      StaysOpen '\x7b' '\x7d' (slice text span.bodyStart span.bodyEnd)
  | .indented =>
    ∀ place, span.paramsEnd = some place → StaysOpen '(' ')' (slice text nameEnd place)

variable {text front name back : Text} {start nameEnd : Nat} {span : DefinitionSpan}

section Braces

theorem occurrences_parts {mark : Char} (narrow : mark.utf8Size = 1) (front middle back : Text) :
    occurrences (Utf8.encode (front ++ (middle ++ back))) mark (byteLength front)
      (byteLength front + byteLength middle) = middle.count mark := by
  rw [occurrences, Utf8.drop_encode_append, Nat.add_sub_cancel_left, Utf8.encode_append,
    ← Utf8.length_encode middle, List.take_left, Utf8.count_encode narrow]

/-- Between the brace that opens a body and the one that closes it, fewer braces are closed than opened. -/
theorem occurrences_lt_of_unclosed {bytes : Bytes} {opening last : Nat}
    (stands : Utf8.Stands bytes '\x7b' opening) (unclosed : ∀ place < last, ¬ ClosesBody bytes opening place)
    {stop : Nat} (after : opening < stop) (before : stop ≤ last) :
    occurrences bytes '\x7d' opening stop < occurrences bytes '\x7b' opening stop := by
  induction stop, after using Nat.le_induction with
  | base =>
    rw [occurrences_of_stands (Nat.le_refl _) stands,
      occurrences_of_not_stands (Nat.le_refl _) (Stands.ne stands (by decide)), occurrences_self]
    exact Nat.succ_pos _
  | succ stop after ih =>
    have fewer := ih (by omega)
    have beyond : opening ≤ stop := by omega
    by_cases closes : Utf8.Stands bytes '\x7d' stop
    · have closed := occurrences_of_stands beyond closes
      have opened := occurrences_of_not_stands (c := '\x7b') beyond (Stands.ne closes (by decide))
      -- If the counts were equal, the body would be closed here.
      have open' : occurrences bytes '\x7b' opening (stop + 1) ≠ occurrences bytes '\x7d' opening (stop + 1) :=
        fun balanced => unclosed stop (by omega) ⟨by omega, closes, balanced⟩
      omega
    · have closed := occurrences_of_not_stands beyond closes
      have opened : occurrences bytes '\x7b' opening stop ≤ occurrences bytes '\x7b' opening (stop + 1) := by
        rw [occurrences_succ beyond]
        exact Nat.le_add_right _ _
      omega

theorem Describes.unclosed {bytes : Bytes} {opening : Nat}
    (describes : Describes bytes start nameEnd opening span) :
    ∀ place < span.bodyEnd, ¬ ClosesBody bytes opening place := by
  obtain ⟨closing, isFirst, isEnd⟩ := describes.bodyEnd
  rw [isEnd]
  cases closing with
  | none => exact fun place _ => isFirst place
  | some last => exact isFirst.2

theorem staysOpen_of_unclosed {middle : Text}
    (stands : Utf8.Stands (Utf8.encode (front ++ '\x7b' :: (middle ++ back))) '\x7b' (byteLength front))
    (unclosed : ∀ place < byteLength front + byteLength ('\x7b' :: middle),
      ¬ ClosesBody (Utf8.encode (front ++ '\x7b' :: (middle ++ back))) (byteLength front) place) :
    StaysOpen '\x7b' '\x7d' middle := by
  rintro part ⟨rest, rfl⟩
  have brace : 0 < byteLength ('\x7b' :: part) := byteLength_pos (List.cons_ne_nil _ _)
  have shorter : byteLength ('\x7b' :: part) ≤ byteLength ('\x7b' :: (part ++ rest)) :=
    byteLength_le_of_prefix (List.prefix_append ('\x7b' :: part) rest)
  have fewer := occurrences_lt_of_unclosed stands unclosed (Nat.lt_add_of_pos_right brace)
    (Nat.add_le_add_left shorter _)
  have parts : front ++ '\x7b' :: (part ++ rest ++ back) =
      front ++ (('\x7b' :: part) ++ (rest ++ back)) := by simp
  rw [parts, occurrences_parts (by decide), occurrences_parts (by decide)] at fewer
  simpa [Nat.lt_succ_iff] using fewer

theorem sound_of_braces (ordered : start ≤ nameEnd) (found : braces? text start nameEnd = some span) :
    span.Sound text start nameEnd := by
  have spec := braces?_spec text ordered
  rw [found] at spec
  obtain ⟨opening, opens, describes⟩ := spec
  have inside := opens.brace.lt
  rw [Utf8.length_encode] at inside
  obtain ⟨cutsBefore, cutsAfter⟩ := Utf8.isBoundary_of_stands (by decide) opens.brace
  obtain ⟨closing, isFirst, isEnd⟩ := describes.bodyEnd
  have ends : opening + 1 ≤ span.bodyEnd ∧ isBoundary span.bodyEnd text = true := by
    rw [isEnd, Utf8.length_encode]
    cases closing with
    | none => exact ⟨inside, isBoundary_byteLength text⟩
    | some place => exact ⟨isFirst.1.1, (Utf8.isBoundary_of_stands (by decide) isFirst.1.2.1).1⟩
  have params := describes.paramsEnd
  rw [← describes.signatureEnd] at cutsBefore params
  rw [← describes.bodyStart] at cutsAfter ends
  refine ⟨?_, ?_, ends.1, le_of_isBoundary ends.2, cutsBefore, cutsAfter, ends.2, fun place isPlace => ?_⟩
  · rw [describes.signatureEnd]
    exact opens.after
  · rw [describes.signatureEnd, describes.bodyStart]
    exact Nat.le_succ opening
  · rw [isPlace] at params
    obtain ⟨after, before, stands, -⟩ := params.1
    exact ⟨after, before, Utf8.isBoundary_of_stands (by decide) stands⟩

theorem counted_of_braces (ordered : start ≤ nameEnd) (starts : isBoundary start text = true)
    (found : braces? text start nameEnd = some span) : span.Counted .braces text start nameEnd := by
  have sound := sound_of_braces ordered found
  have spec := braces?_spec text ordered
  rw [found] at spec
  obtain ⟨opening, opens, describes⟩ := spec
  constructor
  · obtain ⟨front, middle, back, rfl, rfl, isEnd⟩ :=
      exists_between sound.start_le starts sound.signatureEnd
    rw [isEnd, slice_append]
    rintro part ⟨rest, rfl⟩
    have nested := opens.nested (byteLength front + byteLength part) (Nat.le_add_right _ _) (by
      rw [← describes.signatureEnd, isEnd, byteLength_append]
      omega)
    rwa [List.append_assoc, occurrences_parts (by decide), occurrences_parts (by decide)] at nested
  · obtain ⟨front, rest, rfl, rfl⟩ := Utf8.exists_of_stands (by decide) opens.brace
    obtain ⟨longer, middle, back, parts, isStart, isEnd⟩ :=
      exists_between sound.bodyStart_le sound.bodyStart sound.bodyEnd
    have width : byteLength (front ++ ['\x7b']) = byteLength longer := by
      rw [← isStart, describes.bodyStart, byteLength_append]
      rfl
    obtain ⟨rfl, rfl⟩ := append_inj_of_byteLength (by simpa using parts) width
    rw [isStart, isEnd, parts, slice_append]
    refine staysOpen_of_unclosed opens.brace fun place before => describes.unclosed place ?_
    rw [isEnd, byteLength_append]
    exact Nat.lt_of_lt_of_le before (by simp [byteLength, Nat.add_assoc])

end Braces

section Indented

theorem flatten_of_hasLines {lines : List Text} (hasLines : HasLines text lines) : text = lines.flatten := by
  induction hasLines with
  | nothing => rfl
  | last => rw [List.flatten_singleton]
  | more clean others ih => rw [List.flatten_cons, ← ih, List.append_assoc, List.singleton_append]

variable {layout : Layout}

/-- The ends of the line, of its line break and of the body can be cut at. -/
theorem Layout.Fits.cuts (fits : layout.Fits front name back) {first lineEnd next : Nat}
    (isFirst : first = byteLength (front ++ name) + byteLength (layout.params.getD []))
    (isLineEnd : lineEnd = first + byteLength layout.line)
    (isNext : next = lineEnd + byteLength layout.lineBreak) :
    isBoundary lineEnd (front ++ name ++ back) = true ∧ isBoundary next (front ++ name ++ back) = true ∧
      isBoundary (next + byteLength layout.body.flatten) (front ++ name ++ back) = true := by
  obtain ⟨following, rfl, -, hasLines⟩ := fits.parts
  obtain rfl := flatten_of_hasLines hasLines
  rw [isNext, isLineEnd, isFirst]
  generalize layout.params.getD [] = params
  refine ⟨?_, ?_, ?_⟩
  · exact isBoundary_of_parts (front ++ name ++ params ++ layout.line) (by simp; rfl)
      (by simp only [byteLength_append])
  · exact isBoundary_of_parts (front ++ name ++ params ++ layout.line ++ layout.lineBreak)
      (by simp; rfl) (by simp only [byteLength_append])
  · exact isBoundary_of_parts
      (front ++ name ++ params ++ layout.line ++ layout.lineBreak ++ layout.body.flatten)
      (by simp; rfl) (by simp only [byteLength_append])

/-- A separator of a body on the line of its definition is a character of this line. -/
theorem Layout.Fits.cuts_signature (fits : layout.Fits front name back) {before : Text}
    (isSignature : layout.signature = some before) {first : Nat}
    (isFirst : first = byteLength (front ++ name) + byteLength (layout.params.getD [])) :
    isBoundary (first + byteLength before) (front ++ name ++ back) = true ∧
      isBoundary (first + byteLength before + 1) (front ++ name ++ back) = true ∧
      byteLength before + 1 ≤ byteLength layout.line := by
  obtain ⟨following, rfl, -, -⟩ := fits.parts
  obtain ⟨c, code, isLine, -, isSeparator, -⟩ := fits.signature before isSignature
  have narrow := utf8Size_of_separates isSeparator
  rw [isLine, isFirst]
  generalize layout.params.getD [] = params
  refine ⟨?_, ?_, ?_⟩
  · exact isBoundary_of_parts (front ++ name ++ params ++ before) (by simp; rfl)
      (by simp only [byteLength_append])
  · exact isBoundary_of_parts (front ++ name ++ params ++ before ++ [c]) (by simp; rfl)
      (by simp only [byteLength_append, byteLength, narrow])
  · rw [byteLength_append, byteLength, narrow]
    omega

/-- The parenthesis that closes a parameter list comes after the name and before the end of the signature. -/
theorem Layout.Fits.cuts_params (fits : layout.Fits front name back) {place : Nat}
    (isPlace : layout.params.map (byteLength (front ++ name) + byteLength ·) = some place) :
    byteLength (front ++ name) < place ∧
      place = byteLength (front ++ name) + byteLength (layout.params.getD []) ∧
      (isBoundary place (front ++ name ++ back) = true ∧
        isBoundary (place + 1) (front ++ name ++ back) = true) ∧
      0 < byteLength layout.line ∧ ∀ before, layout.signature = some before → 0 < byteLength before := by
  obtain ⟨params, isParams, rfl⟩ := Option.map_eq_some_iff.mp isPlace
  obtain ⟨⟨blanks, inside, isList, -, -⟩, closes⟩ := fits.params params isParams
  obtain ⟨rest, isLine⟩ := List.head?_eq_some_iff.mp closes
  obtain ⟨following, rfl, -, -⟩ := fits.parts
  have filled : 0 < byteLength params := byteLength_pos (by simp [isList])
  rw [isParams, Option.getD_some, isLine]
  refine ⟨Nat.lt_add_of_pos_right filled, rfl, ⟨?_, ?_⟩, byteLength_pos (List.cons_ne_nil _ _),
    fun before isSignature => ?_⟩
  · exact isBoundary_of_parts (front ++ name ++ params) (by simp; rfl)
      (by simp only [byteLength_append])
  · exact isBoundary_of_parts (front ++ name ++ params ++ [')']) (by simp; rfl)
      (by simp only [byteLength_append]; rfl)
  · obtain ⟨c, code, parts, -, isSeparator, -⟩ := fits.signature before isSignature
    cases before with
    | nil =>
      -- The line begins with a parenthesis, and no parenthesis separates.
      rw [isLine] at parts
      obtain ⟨rfl, -⟩ := List.cons.inj parts
      cases isSeparator
    | cons first before => exact byteLength_pos (List.cons_ne_nil first before)

theorem Layout.Fits.sound (fits : layout.Fits front name back) :
    (layout.span (byteLength (front ++ name))).Sound (front ++ name ++ back) (byteLength front)
      (byteLength (front ++ name)) := by
  obtain ⟨first, isFirst⟩ :
      ∃ first, first = byteLength (front ++ name) + byteLength (layout.params.getD []) := ⟨_, rfl⟩
  obtain ⟨lineEnd, isLineEnd⟩ : ∃ lineEnd, lineEnd = first + byteLength layout.line := ⟨_, rfl⟩
  obtain ⟨next, isNext⟩ : ∃ next, next = lineEnd + byteLength layout.lineBreak := ⟨_, rfl⟩
  obtain ⟨cutsLine, cutsNext, cutsBody⟩ := fits.cuts isFirst isLineEnd isNext
  have begins : byteLength front ≤ first := by
    rw [isFirst, byteLength_append]
    omega
  -- A body without lines ends on the line of its definition, or right after it.
  have ends {bodyStart stop : Nat} (ordered : bodyStart ≤ stop) (before : stop ≤ next)
      (cuts : isBoundary stop (front ++ name ++ back) = true) {bodyEnd : Nat}
      (isEnd : bodyEnd = if layout.body = [] then stop else next + byteLength layout.body.flatten) :
      bodyStart ≤ bodyEnd ∧ isBoundary bodyEnd (front ++ name ++ back) = true := by
    rw [isEnd]
    split
    · exact ⟨ordered, cuts⟩
    · exact ⟨by omega, cutsBody⟩
  cases isSignature : layout.signature with
  | none =>
    simp only [Layout.span, isSignature, ← isFirst, ← isLineEnd, ← isNext]
    obtain ⟨filled, cutsEnd⟩ := ends (Nat.le_refl next) (Nat.le_refl next) cutsNext rfl
    refine ⟨?_, ?_, filled, le_of_isBoundary cutsEnd, cutsLine, cutsNext, cutsEnd, ?_⟩
    · dsimp only
      omega
    · dsimp only
      omega
    · intro place isPlace
      obtain ⟨after, last, cuts, line, -⟩ := fits.cuts_params isPlace
      dsimp only
      exact ⟨after, by omega, cuts⟩
  | some before =>
    obtain ⟨cutsBefore, cutsAfter, short⟩ := fits.cuts_signature isSignature isFirst
    simp only [Layout.span, isSignature, ← isFirst, ← isLineEnd, ← isNext]
    obtain ⟨filled, cutsEnd⟩ :=
      ends (show first + byteLength before + 1 ≤ lineEnd by omega) (by omega) cutsLine rfl
    refine ⟨?_, ?_, filled, le_of_isBoundary cutsEnd, cutsBefore, cutsAfter, cutsEnd, ?_⟩
    · dsimp only
      omega
    · exact Nat.le_succ _
    · intro place isPlace
      obtain ⟨after, last, cuts, -, separated⟩ := fits.cuts_params isPlace
      have filled := separated before isSignature
      dsimp only
      exact ⟨after, by omega, cuts⟩

theorem staysOpen_of_isParams {params : Text} (isParams : IsParams params) : StaysOpen '(' ')' params := by
  obtain ⟨blanks, inside, rfl, indents, -, nested⟩ := isParams
  have free : blanks.count ')' = 0 :=
    List.count_eq_zero.mpr fun member => absurd (indents _ member) (by decide)
  rintro part ⟨rest, parts⟩
  rcases List.append_eq_append_iff.mp parts with ⟨others, rfl, -⟩ | ⟨beyond, rfl, opened⟩
  · rw [List.count_append] at free
    omega
  · cases beyond with
    | nil => simp [free]
    | cons c beyond =>
      obtain ⟨rfl, rfl⟩ := List.cons.inj opened
      have inner := nested beyond (List.prefix_append beyond rest)
      rw [List.count_append, List.count_append, free, List.count_cons_of_ne (by decide),
        List.count_cons_self]
      omega

theorem sound_of_indented (grammar : Grammar) (ordered : start ≤ nameEnd)
    (starts : isBoundary start text = true) (ends : isBoundary nameEnd text = true)
    (found : indented? grammar text start nameEnd = some span) :
    span.Sound text start nameEnd ∧ span.Counted .indented text start nameEnd := by
  obtain ⟨front, name, back, rfl, rfl, isEnd⟩ := exists_between ordered starts ends
  rw [← byteLength_append] at isEnd
  rw [isEnd, ← List.append_assoc] at found ⊢
  obtain ⟨layout, fits⟩ := exists_fits front name back
  rw [fits.indented?_eq] at found
  split at found
  case isFalse => cases found
  case isTrue =>
    cases found
    refine ⟨fits.sound, fun place isPlace => ?_⟩
    obtain ⟨params, isParams, rfl⟩ := Option.map_eq_some_iff.mp isPlace
    obtain ⟨following, rfl, -⟩ := fits.parts
    rw [isParams, Option.getD_some, slice_append]
    exact staysOpen_of_isParams (fits.params params isParams).1

end Indented

theorem sound_of_definitionSpan? {grammar : Grammar} (ordered : start ≤ nameEnd)
    (starts : isBoundary start text = true) (ends : isBoundary nameEnd text = true)
    (found : grammar.definitionSpan? text start nameEnd = some span) :
    span.Sound text start nameEnd ∧ span.Counted grammar.bodyStyle text start nameEnd := by
  rw [Grammar.definitionSpan?] at found
  cases style : grammar.bodyStyle with
  | braces =>
    rw [style] at found
    exact ⟨sound_of_braces ordered found, counted_of_braces ordered starts found⟩
  | indented =>
    rw [style] at found
    exact sound_of_indented grammar ordered starts ends found

end DepAtlas.DefinitionSpan
