import ValvePipeline.Proofs.Grammar
import ValvePipeline.Proofs.Meaning
import ValvePipeline.Proofs.Rounding

/-!
Comparing whole numbers. An expression compares a stored whole number and a written one after it has rounded
both, so that different ones may pass for equal; numbers of less than 2 ^ 53 never do.
-/

set_option autoImplicit false
set_option relaxedAutoImplicit false

namespace ValvePipeline

variable {op : Comparison} {a b : Int}

/-- Rounding changes no relation between numbers that it does not make equal. -/
theorem Comparison.relates_ofInt_iff (op : Comparison)
    (h : (Binary64.ofInt a).value = (Binary64.ofInt b).value → a = b) :
    op.Relates (Binary64.ofInt a).value (Binary64.ofInt b).value ↔ op.Relates a b := by
  have hle : a ≤ b → (Binary64.ofInt a).value ≤ (Binary64.ofInt b).value := Binary64.value_ofInt_mono
  have hge : b ≤ a → (Binary64.ofInt b).value ≤ (Binary64.ofInt a).value := Binary64.value_ofInt_mono
  have heq : a = b → (Binary64.ofInt a).value = (Binary64.ofInt b).value := fun h => by rw [h]
  generalize (Binary64.ofInt a).value = x at *
  generalize (Binary64.ofInt b).value = y at *
  cases op <;> simp only [Relates] <;> omega

theorem Binary64.eq_of_value_ofInt_eq (hapart : Apart a b) (h : (ofInt a).value = (ofInt b).value) :
    a = b := by
  rcases Int.lt_trichotomy a b with hlt | heq | hgt
  · exact absurd h (Int.ne_of_lt (value_ofInt_lt hlt hapart))
  · exact heq
  · exact absurd h.symm (Int.ne_of_lt (value_ofInt_lt hgt hapart.symm))

namespace Expression

/-- An expression that compares a name with a whole number holds of a stored whole number exactly when the
binary numbers closest to the two are in the relation of the operator. That is the relation of the numbers
themselves, unless they are different and have one closest binary number; numbers of less than 2 ^ 53 share it
with no other. -/
theorem integer_comparison {text : String} {name literal : List Char} {attributes : Attributes}
    (hspells : Spells text.toList (.comparison name op literal)) (hwhole : Decimal.Whole literal b)
    (hrange : IsInt64 b) (hactual : attributes.get? (String.ofList name) = some (.int a)) :
    ∃ e, parse text = .ok e ∧ Binary64.Rounds a (.ofInt a) ∧ Binary64.Rounds b (.ofInt b) ∧
      (e.holds attributes = true ↔ op.Relates (Binary64.ofInt a).value (Binary64.ofInt b).value) ∧
      (a = b ∨ (Binary64.ofInt a).value ≠ (Binary64.ofInt b).value →
        (e.holds attributes = true ↔ op.Relates a b)) ∧
      (Binary64.Apart a b → (e.holds attributes = true ↔ op.Relates a b)) := by
  have hread := hspells.readTest (.comparison (.whole hwhole hrange))
  let e : Expression := ⟨Text.trim text, .compare (String.ofList name) op (.int b)⟩
  have hholds : e.holds attributes = true ↔
      op.Relates (Binary64.ofInt a).value (Binary64.ofInt b).value :=
    (Test.compare_holds_iff hactual).trans Json.stands_number_iff
  refine ⟨e, parse_eq_ok_iff.mpr ⟨hread, rfl⟩, Binary64.rounds_ofInt a, Binary64.rounds_ofInt b, hholds,
    ?_, ?_⟩
  · intro hdiffer
    exact hholds.trans (op.relates_ofInt_iff fun h => hdiffer.resolve_right fun hne => hne h)
  · intro hapart
    exact hholds.trans (op.relates_ofInt_iff (Binary64.eq_of_value_ofInt_eq hapart))

theorem integer_comparison_of_less : ∃ e, parse "count < 7" = .ok e ∧
    e.holds ⟨[("count", .int 5)]⟩ = true := by
  have hspace : Text.AllBlank [' '] := by decide
  have hnone : Text.AllBlank [] := by decide
  have hname : Name ['c', 'o', 'u', 'n', 't'] := name_iff.mpr rfl
  have hwhole : Decimal.Whole ['7'] 7 := Decimal.readInt?_eq_some_iff.mp rfl
  have hrange : IsInt64 7 := by decide
  have hspells : Spells "count < 7".toList (.comparison ['c', 'o', 'u', 'n', 't'] .lt ['7']) :=
    .comparison .lt hnone hname hspace hspace (.of_whole hwhole hrange) hnone
  have hactual : (Attributes.mk [("count", .int 5)]).get? "count" = some (.int 5) := rfl
  obtain ⟨e, he, -, -, -, -, hexact⟩ := integer_comparison hspells hwhole hrange hactual
  exact ⟨e, he, (hexact (.inl (by decide))).mpr (by decide)⟩

/-- A number that is greater by one passes for equal. -/
theorem integer_comparison_inexact :
    ¬∀ (text : String) (name literal : List Char) (op : Comparison) (a b : Int) (attributes : Attributes),
      Spells text.toList (.comparison name op literal) → Decimal.Whole literal b → IsInt64 a → IsInt64 b →
      attributes.get? (String.ofList name) = some (.int a) →
      ∃ e, parse text = .ok e ∧ (e.holds attributes = true ↔ op.Relates a b) := by
  intro h
  have hspace : Text.AllBlank [' '] := by decide
  have hnone : Text.AllBlank [] := by decide
  have hname : Name ['k'] := name_iff.mpr rfl
  have hwhole : Decimal.Whole "9007199254740992".toList 9007199254740992 :=
    Decimal.readInt?_eq_some_iff.mp rfl
  have hrange : IsInt64 9007199254740992 := by decide
  have hspells := Spells.comparison .eq hnone hname hspace hspace (.of_whole hwhole hrange) hnone
  obtain ⟨e, he, hholds⟩ := h "k == 9007199254740992" ['k'] "9007199254740992".toList .eq 9007199254740993
    9007199254740992 ⟨[("k", .int 9007199254740993)]⟩ hspells hwhole (by decide) hrange rfl
  have hparse : parse "k == 9007199254740992" =
      .ok ⟨"k == 9007199254740992", .compare "k" .eq (.int 9007199254740992)⟩ := rfl
  cases he.symm.trans hparse
  have hequal := hholds.mp (by decide +kernel)
  exact absurd hequal (by decide)

end Expression

end ValvePipeline
