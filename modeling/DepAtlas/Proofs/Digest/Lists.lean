import Mathlib.Data.List.Basic
import DepAtlas.Proofs.Incremental.Change
import DepAtlas.Proofs.Text.Bytes

/-!
The digest of a list of strings. A digest that is made piece by piece is the digest of all the pieces at once:
what a hasher holds is told by the bytes that it has seen, however they were cut into pieces, since the bytes that
wait for the next piece are those that the last stripe left. So the digest of a list is that of the strings'
bytes, with a byte after each string that occurs in no string, and these bytes tell the strings apart: two lists
with one digest are equal, or their bytes differ and the digest does not tell it.
-/

namespace DepAtlas

namespace Digest

namespace Lanes

variable {lanes : Lanes} {bytes : Bytes} {bound : Nat}

theorem absorbAll_of_le (few : bytes.length ≤ 64) : absorbAll bound lanes bytes = (lanes, bytes) := by
  cases bound with
  | zero => rfl
  | succ bound => rw [absorbAll, List.drop_eq_nil_of_le few]

theorem absorbAll_of_lt (more : 64 < bytes.length) :
    absorbAll (bound + 1) lanes bytes =
      absorbAll bound (lanes.absorb (bytes.take 64)) (bytes.drop 64) := by
  rw [absorbAll]
  split
  case h_1 nothing => exact absurd (List.drop_eq_nil_iff.mp nothing) (Nat.not_le.mpr more)
  case h_2 => rfl

theorem absorbAll_congr {other : Nat} (enough : bytes.length ≤ bound) (enough' : bytes.length ≤ other) :
    absorbAll bound lanes bytes = absorbAll other lanes bytes := by
  induction bound generalizing other lanes bytes with
  | zero => rw [absorbAll_of_le (by omega), absorbAll_of_le (by omega)]
  | succ bound ih =>
    rcases Nat.lt_or_ge 64 bytes.length with more | few
    · obtain ⟨other, rfl⟩ := Nat.exists_eq_succ_of_ne_zero (show other ≠ 0 by omega)
      rw [absorbAll_of_lt more, absorbAll_of_lt more]
      refine ih ?_ ?_ <;> rw [List.length_drop] <;> omega
    · rw [absorbAll_of_le few, absorbAll_of_le few]

/-- The lanes with every stripe of a content that more bytes follow, and what is left of the content. -/
def absorbed (lanes : Lanes) (bytes : Bytes) : Lanes × Bytes :=
  absorbAll bytes.length lanes bytes

theorem absorbed_of_le (few : bytes.length ≤ 64) : lanes.absorbed bytes = (lanes, bytes) :=
  absorbAll_of_le few

theorem absorbed_of_lt (more : 64 < bytes.length) :
    lanes.absorbed bytes = (lanes.absorb (bytes.take 64)).absorbed (bytes.drop 64) := by
  rw [absorbed, absorbAll_congr (Nat.le_refl _) (Nat.le_succ _), absorbAll_of_lt more, absorbed]
  refine absorbAll_congr ?_ (Nat.le_refl _)
  rw [List.length_drop]
  exact Nat.sub_le _ _

/-- What a first part leaves is taken in with the second part. -/
theorem absorbed_append (lanes : Lanes) (front back : Bytes) :
    lanes.absorbed (front ++ back) =
      (lanes.absorbed front).1.absorbed ((lanes.absorbed front).2 ++ back) := by
  rcases Nat.lt_or_ge 64 front.length with more | few
  · have longer : 64 < (front ++ back).length := by
      rw [List.length_append]
      omega
    rw [absorbed_of_lt longer, absorbed_of_lt more, List.take_append_of_le_length (Nat.le_of_lt more),
      List.drop_append_of_le_length (Nat.le_of_lt more)]
    exact absorbed_append _ (front.drop 64) back
  · rw [absorbed_of_le few]
termination_by front.length
decreasing_by
  rw [List.length_drop]
  omega

end Lanes

/-- The last stripe of a content is found among the last stripe of a first part and the rest. -/
theorem lastStripe_append (front back : Bytes) :
    lastStripe (lastStripe front front.length ++ back) (lastStripe front front.length ++ back).length =
      lastStripe (front ++ back) (front ++ back).length := by
  have rest : lastStripe front front.length ++ back = (front ++ back).drop (front.length - 64) :=
    (List.drop_append_of_le_length (Nat.sub_le _ _)).symm
  have place : front.length - 64 + (front.length + back.length - (front.length - 64) - 64) =
      front.length + back.length - 64 := by omega
  rw [rest, lastStripe, lastStripe, List.drop_drop, List.length_drop, List.length_append, place]

end Digest

namespace Hasher

open Digest (Lanes shortLimit lastStripe ofBytes)

/-- The digest in the making after some bytes. -/
def after (seen : Bytes) : Hasher where
  head := seen.take shortLimit
  lanes := (Lanes.initial.absorbed seen).1
  pending := (Lanes.initial.absorbed seen).2
  last := lastStripe seen seen.length
  length := seen.length

theorem after_nil : after [] = {} := rfl

theorem update_after (seen bytes : Bytes) : (after seen).update bytes = after (seen ++ bytes) := by
  have head : seen.take shortLimit ++ bytes.take (shortLimit - (seen.take shortLimit).length) =
      (seen ++ bytes).take shortLimit := by
    rw [List.take_append, List.length_take]
    congr 2
    omega
  have taken : (Lanes.initial.absorbed seen).1.absorbed ((Lanes.initial.absorbed seen).2 ++ bytes) =
      Lanes.initial.absorbed (seen ++ bytes) := (Lanes.absorbed_append _ seen bytes).symm
  rw [Lanes.absorbed] at taken
  simp only [update, after, head, taken, Digest.lastStripe_append]
  rw [List.length_append]

theorem foldl_update_after (seen : Bytes) (pieces : List Bytes) :
    pieces.foldl update (after seen) = after (seen ++ pieces.flatten) := by
  induction pieces generalizing seen with
  | nil => rw [List.foldl_nil, List.flatten_nil, List.append_nil]
  | cons piece pieces ih => rw [List.foldl_cons, update_after, ih, List.flatten_cons, List.append_assoc]

theorem finish_after (seen : Bytes) : (after seen).finish = ofBytes seen := by
  by_cases short : seen.length ≤ shortLimit
  · have whole : (after seen).head = seen := List.take_of_length_le short
    rw [ofBytes, if_pos short, finish, whole]
    exact if_pos short
  · rw [ofBytes, if_neg short]
    exact if_neg short

/-- The digest of pieces is that of their bytes in one go, wherever the pieces end. -/
theorem finish_pieces (pieces : List Bytes) :
    (pieces.foldl update {}).finish = ofBytes pieces.flatten := by
  rw [← after_nil, foldl_update_after, finish_after, List.nil_append]

end Hasher

/-- What a dependency is compared by. -/
def Dependency.label (dependency : Dependency) : Layer × String :=
  (dependency.layer, dependency.target)

/-- The key of a dependency tells its layer and its target, since no name of a layer has a colon. -/
theorem Dependency.key_eq_iff {dependency other : Dependency} :
    dependency.key = other.key ↔ dependency.label = other.label := by
  rw [label, label, Prod.mk.injEq]
  constructor
  · intro same
    have isLayer : dependency.layer = other.layer := Layer.eq_of_key same
    rw [key, key, isLayer] at same
    exact ⟨isLayer, (String.append_right_inj _).mp same⟩
  · rintro ⟨isLayer, isTarget⟩
    rw [key, key, isLayer, isTarget]

theorem Dependency.map_key_eq_iff {dependencies others : List Dependency} :
    dependencies.map key = others.map key ↔ dependencies.map label = others.map label := by
  induction dependencies generalizing others with
  | nil => cases others <;> simp
  | cons dependency dependencies ih =>
    cases others with
    | nil => simp
    | cons other others => simp only [List.map_cons, List.cons.injEq, key_eq_iff, ih]

namespace Digest

/-- The bytes of strings, each followed by a byte that occurs in no string. -/
def joined (texts : List String) : Bytes :=
  texts.flatMap fun text => bytesOf text ++ [0xFF]

/-- Two contents with one digest. -/
def Collide (bytes others : Bytes) : Prop :=
  bytes ≠ others ∧ ofBytes bytes = ofBytes others

theorem joined_cons (text : String) (texts : List String) :
    joined (text :: texts) = bytesOf text ++ 0xFF :: joined texts := by
  rw [joined, List.flatMap_cons, List.append_assoc]
  rfl

theorem not_mem_bytesOf (text : String) : (0xFF : UInt8) ∉ bytesOf text := by
  rw [bytesOf, Text.Utf8.toList_toUTF8]
  exact fun member => absurd (Text.Utf8.lt_of_mem_encode member) (by decide)

theorem bytesOf_injective : Function.Injective bytesOf := by
  intro text other same
  have read := congrArg (Text.Utf8.decode none) same
  rw [bytesOf, bytesOf, Text.Utf8.decode_toUTF8, Text.Utf8.decode_toUTF8] at read
  exact String.toList_inj.mp (List.map_injective_iff.mpr (Option.some_injective _) read)

/-- The first place of a mark parts a content. -/
theorem append_mark_inj {mark : UInt8} {front back front' back' : Bytes} (absent : mark ∉ front)
    (absent' : mark ∉ front') (same : front ++ mark :: back = front' ++ mark :: back') :
    front = front' ∧ back = back' := by
  induction front generalizing front' with
  | nil =>
    cases front' with
    | nil => exact ⟨rfl, (List.cons.inj same).2⟩
    | cons byte front' =>
      obtain ⟨rfl, -⟩ := List.cons.inj same
      exact absurd List.mem_cons_self absent'
  | cons byte front ih =>
    cases front' with
    | nil =>
      obtain ⟨rfl, -⟩ := List.cons.inj same
      exact absurd List.mem_cons_self absent
    | cons other front' =>
      obtain ⟨rfl, rest⟩ := List.cons.inj same
      obtain ⟨rfl, isBack⟩ := ih (fun member => absent (List.mem_cons_of_mem _ member))
        (fun member => absent' (List.mem_cons_of_mem _ member)) rest
      exact ⟨rfl, isBack⟩

theorem joined_injective : Function.Injective joined := by
  intro texts others same
  induction texts generalizing others with
  | nil =>
    cases others with
    | nil => rfl
    | cons other others =>
      rw [joined_cons] at same
      exact absurd same.symm (List.append_ne_nil_of_right_ne_nil _ (List.cons_ne_nil _ _))
  | cons text texts ih =>
    cases others with
    | nil =>
      rw [joined_cons] at same
      exact absurd same (List.append_ne_nil_of_right_ne_nil _ (List.cons_ne_nil _ _))
    | cons other others =>
      rw [joined_cons, joined_cons] at same
      obtain ⟨isText, rest⟩ := append_mark_inj (not_mem_bytesOf text) (not_mem_bytesOf other) same
      rw [bytesOf_injective isText, ih rest]

theorem ofStrings_eq (texts : List String) : ofStrings texts = ofBytes (joined texts) := by
  have pieces : (texts.flatMap fun text => [bytesOf text, [0xFF]]).flatten = joined texts := by
    rw [List.flatten_eq_flatMap, List.flatMap_assoc]
    rfl
  rw [← pieces, ← Hasher.finish_pieces, List.foldl_flatMap]
  rfl

/-- Two lists of strings have one digest exactly if they are equal or their bytes collide. -/
theorem ofStrings_eq_iff {texts others : List String} :
    ofStrings texts = ofStrings others ↔ texts = others ∨ Collide (joined texts) (joined others) := by
  rw [ofStrings_eq, ofStrings_eq]
  constructor
  · intro same
    by_cases equal : texts = others
    · exact .inl equal
    · exact .inr ⟨joined_injective.ne equal, same⟩
  · rintro (rfl | ⟨-, same⟩)
    · rfl
    · exact same

end Digest

end DepAtlas
