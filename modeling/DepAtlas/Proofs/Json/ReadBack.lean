import DepAtlas.Dependency.Json
import DepAtlas.Proofs.Json.RoundTrip

/-!
Decoders against encoders: what a decoder finds in the text that an encoder wrote is what was encoded.
-/

namespace DepAtlas

namespace Json

variable {α : Type}

/-- Whether what is decoded from a written value is what was encoded. -/
def ReadsBack (encode : α → Json) (decode : Json → Option α) : Prop :=
  ∀ value read, decode (asRead (encode value)) = some read → read = value

theorem asRead_ofList (encode : α → Json) (values : List α) :
    asRead (ofList encode values) = .arr (values.map fun value => asRead (encode value)) := by
  rw [ofList, asRead, itemsAsRead_eq_map, List.map_map]
  rfl

theorem fits_ofList {encode : α → Json} {depth : Nat} (each : ∀ value, fits depth (encode value))
    (values : List α) : fits (depth + 1) (ofList encode values) := by
  have all : itemsFit depth (values.map encode) := by
    induction values with
    | nil => rfl
    | cons value values ih => simp only [List.map_cons, itemsFit, each, ih, Bool.and_self]
  exact all

theorem membersFit_append (depth : Nat) (first second : List (String × Json)) :
    membersFit depth (first ++ second) = (membersFit depth first && membersFit depth second) := by
  induction first with
  | nil => rfl
  | cons member first ih => rw [List.cons_append, membersFit, membersFit, ih, Bool.and_assoc]

theorem readsBack_str : ReadsBack .str str? := by
  intro value read found
  exact (Option.some.inj found).symm

theorem readsBack_int : ReadsBack .int int? := by
  intro value read found
  exact int?_ofWritten found

theorem nat?_asRead {value read : Nat} (found : (asRead (.nat value)).nat? = some read) :
    read = value := by
  obtain ⟨whole, isInt, positive⟩ := Option.bind_eq_some_iff.mp found
  have same := readsBack_int _ _ isInt
  subst same
  rw [if_pos (Int.natCast_nonneg value)] at positive
  exact (Option.some.inj positive).symm

theorem readsBack_natBelow (limit : Nat) : ReadsBack .nat (natBelow? limit) := by
  intro value read found
  exact nat?_asRead (Option.eq_some_of_filter_eq_some found)

theorem ReadsBack.list {encode : α → Json} {decode : Json → Option α}
    (each : ReadsBack encode decode) : ReadsBack (ofList encode) (list? decode) := by
  intro values read found
  rw [asRead_ofList, list?, arr?, Option.bind_some] at found
  induction values generalizing read with
  | nil => exact (Option.some.inj found).symm
  | cons value values ih =>
    rw [List.map_cons, List.mapM_cons] at found
    obtain ⟨first, isFirst, found⟩ := Option.bind_eq_some_iff.mp found
    obtain ⟨others, areOthers, found⟩ := Option.bind_eq_some_iff.mp found
    rw [← Option.some.inj found, each value first isFirst, ih others areOthers]

theorem readsBack_strings : ReadsBack strings strings? :=
  readsBack_str.list

theorem ReadsBack.absentable {encode : α → Json} {decode : Json → Option α} {record : Record}
    {name : String} {value : α} {read : Option α} (each : ReadsBack encode decode)
    (there : record.fields.lookup name = some (asRead (encode value)))
    (present : asRead (encode value) ≠ .null) (found : record.absentable name decode = some read) :
    read = some value := by
  rw [Record.absentable, there] at found
  split at found
  case h_1 absent => cases absent
  case h_2 null => exact absurd (Option.some.inj null) present
  case h_3 json _ same =>
    obtain ⟨decoded, isDecoded, rfl⟩ := Option.map_eq_some_iff.mp found
    rw [← Option.some.inj same] at isDecoded
    rw [each value decoded isDecoded]

end Json

open Json

theorem Path.readsBack : ReadsBack Path.toJson Path.ofJson? := by
  intro path read found
  exact (Option.some.inj found).symm

theorem Layer.readsBack : ReadsBack Layer.toJson Layer.ofJson? := by
  intro layer read found
  cases layer <;> exact (Option.some.inj found).symm

theorem Language.readsBack : ReadsBack Language.toJson Language.ofJson? := by
  intro language read found
  cases language <;> exact (Option.some.inj found).symm

theorem Detail.readsBack : ReadsBack Detail.toJson Detail.ofJson? := by
  intro detail read found
  obtain ⟨_, -, found⟩ := Option.bind_eq_some_iff.mp found
  cases detail with
  | struct declaration base => cases base <;> exact (Option.some.inj found).symm
  | method returnType calls =>
    cases returnType with
    | none =>
      obtain ⟨names, areCalls, found⟩ := Option.bind_eq_some_iff.mp
        (show ((asRead (strings calls)).strings?.bind fun names => some (Detail.method none names)) =
          some read from found)
      rw [← Option.some.inj found, readsBack_strings _ _ areCalls]
    | some result =>
      obtain ⟨names, areCalls, found⟩ := Option.bind_eq_some_iff.mp
        (show ((asRead (strings calls)).strings?.bind fun names =>
          some (Detail.method (some result) names)) = some read from found)
      rw [← Option.some.inj found, readsBack_strings _ _ areCalls]

theorem Detail.fits_toJson (detail : Detail) (depth : Nat) : fits (depth + 2) detail.toJson := by
  have calls (names : List String) : fits (depth + 1) (strings names) := fits_ofList (fun _ => rfl) names
  cases detail with
  | struct declaration base => cases base <;> rfl
  | method returnType names => cases returnType <;> simp [toJson, fits, membersFit, calls]

theorem Detail.asRead_toJson_ne_null (detail : Detail) : asRead detail.toJson ≠ .null := by
  cases detail <;> simp [Detail.toJson, asRead]

theorem Dependency.fits_toJson (dependency : Dependency) (depth : Nat) :
    fits (depth + 3) dependency.toJson := by
  have detail (detail : Detail) := detail.fits_toJson depth
  simp only [toJson, fits, membersFit_append, Bool.and_eq_true]
  cases dependency.detail <;>
    simp [membersFit, detail, Path.toJson, Layer.toJson, Language.toJson, nat, fits]

theorem Dependency.readsBack : ReadsBack Dependency.toJson Dependency.ofJson? := by
  intro dependency read found
  obtain ⟨source, target, layer, language, line, detail⟩ := dependency
  obtain ⟨record, isRecord, found⟩ := Option.bind_eq_some_iff.mp found
  cases detail
  all_goals
    cases isRecord
    obtain ⟨source', isSource, found⟩ := Option.bind_eq_some_iff.mp found
    obtain ⟨target', isTarget, found⟩ := Option.bind_eq_some_iff.mp found
    obtain ⟨layer', isLayer, found⟩ := Option.bind_eq_some_iff.mp found
    obtain ⟨language', isLanguage, found⟩ := Option.bind_eq_some_iff.mp found
    obtain ⟨line', isLine, found⟩ := Option.bind_eq_some_iff.mp found
    obtain ⟨detail', isDetail, found⟩ := Option.bind_eq_some_iff.mp found
    rw [← Option.some.inj found, Path.readsBack _ _ isSource, readsBack_str _ _ isTarget,
      Layer.readsBack _ _ isLayer, Language.readsBack _ _ isLanguage,
      readsBack_natBelow _ _ _ isLine]
  · rw [← Option.some.inj isDetail]
  · rw [Detail.readsBack.absentable rfl (Detail.asRead_toJson_ne_null _) isDetail]

end DepAtlas
