import ValvePipeline.Expression.Parser

/-!
What expressions mean. Numbers stand in the relation that an operator asks for when their binary values do.
Other values have no order, but a value is not less and not greater than an equal one.
-/

set_option autoImplicit false
set_option relaxedAutoImplicit false

namespace ValvePipeline

def Comparison.Relates : Comparison → Int → Int → Prop
  | .eq, x, y => x = y
  | .ne, x, y => x ≠ y
  | .lt, x, y => x < y
  | .le, x, y => x ≤ y
  | .gt, x, y => x > y
  | .ge, x, y => x ≥ y

instance : ∀ (op : Comparison) (x y : Int), Decidable (op.Relates x y)
  | .eq, x, y => inferInstanceAs (Decidable (x = y))
  | .ne, x, y => inferInstanceAs (Decidable (x ≠ y))
  | .lt, x, y => inferInstanceAs (Decidable (x < y))
  | .le, x, y => inferInstanceAs (Decidable (x ≤ y))
  | .gt, x, y => inferInstanceAs (Decidable (x > y))
  | .ge, x, y => inferInstanceAs (Decidable (x ≥ y))

theorem Comparison.holds_compare_iff (op : Comparison) (x y : Int) :
    op.holds (compare x y) = true ↔ op.Relates x y := by
  rcases Int.lt_trichotomy x y with h | rfl | h
  · rw [Int.compare_eq_lt.mpr h]
    cases op <;> simp [holds, Relates] <;> omega
  · rw [Int.compare_eq_eq.mpr rfl]
    cases op <;> simp [holds, Relates]
  · rw [Int.compare_eq_gt.mpr h]
    cases op <;> simp [holds, Relates] <;> omega

namespace Json

def AreNumbers (actual literal : Json) : Prop :=
  ∃ a b, actual = .number a ∧ literal = .number b

inductive NumbersIn (op : Comparison) : Json → Json → Prop
  | intro {a b : Number} : op.Relates a.toBinary64.value b.toBinary64.value →
    NumbersIn op (.number a) (.number b)

def Equals (actual literal : Json) : Prop :=
  NumbersIn .eq actual literal ∨ actual.same literal = true

/-- What an operator asks of two values. Equal values that are no numbers are also at most and at least each
other. -/
def Stands (actual : Json) (op : Comparison) (literal : Json) : Prop :=
  match op with
  | .eq => Equals actual literal
  | .ne => ¬Equals actual literal
  | .lt | .gt => NumbersIn op actual literal
  | .le | .ge => NumbersIn op actual literal ∨ (¬AreNumbers actual literal ∧ Equals actual literal)

variable {op : Comparison} {actual literal : Json} {a b : Number}

theorem numbersIn_iff :
    NumbersIn op (.number a) (.number b) ↔ op.Relates a.toBinary64.value b.toBinary64.value := by
  constructor
  · rintro ⟨h⟩
    exact h
  · exact .intro

theorem numbersIn_of_same (h : same (.number a) (.number b) = true) :
    NumbersIn .eq (.number a) (.number b) := by
  rw [same] at h
  rw [numbersIn_iff, Comparison.Relates]
  cases a with
  | int i =>
    cases b with
    | int j => rw [eq_of_beq h]
    | float y => cases h
  | float x =>
    cases b with
    | int j => cases h
    | float y => exact eq_of_beq h

theorem stands_number_iff :
    Stands (.number a) op (.number b) ↔ op.Relates a.toBinary64.value b.toBinary64.value := by
  have hequals : Equals (.number a) (.number b) ↔ NumbersIn .eq (.number a) (.number b) :=
    ⟨fun h => h.elim id numbersIn_of_same, .inl⟩
  have hnumbers : AreNumbers (.number a) (.number b) := ⟨a, b, rfl, rfl⟩
  cases op with
  | eq => exact hequals.trans numbersIn_iff
  | ne => exact not_congr (hequals.trans numbersIn_iff)
  | lt => exact numbersIn_iff
  | gt => exact numbersIn_iff
  | le => exact (or_iff_left fun h => h.1 hnumbers).trans numbersIn_iff
  | ge => exact (or_iff_left fun h => h.1 hnumbers).trans numbersIn_iff

theorem not_numbersIn (h : ¬AreNumbers actual literal) : ¬NumbersIn op actual literal := by
  rintro ⟨-⟩
  exact h ⟨_, _, rfl, rfl⟩

theorem stands_iff_of_not_numbers (h : ¬AreNumbers actual literal) : Stands actual op literal ↔
    (actual.same literal = true ∧ (op = .eq ∨ op = .le ∨ op = .ge)) ∨
      (actual.same literal = false ∧ op = .ne) := by
  have hequals : Equals actual literal ↔ actual.same literal = true :=
    or_iff_right (not_numbersIn h)
  cases op <;> simp [Stands, hequals, not_numbersIn h, h]

theorem order?_of_not_numbers (h : ¬AreNumbers actual literal) :
    actual.order? literal = if actual.same literal then some .eq else none := by
  cases actual with
  | number a =>
    cases literal with
    | number b => exact absurd ⟨a, b, rfl, rfl⟩ h
    | _ => rfl
  | _ => rfl

end Json

variable {attributes : Attributes} {key : String} {op : Comparison} {actual literal : Json}

theorem Test.truthy_holds_iff : (Test.truthy key false).holds attributes = true ↔
    ∃ value, attributes.get? key = some value ∧ value.truthy = true := by
  rw [Test.holds, Bool.bne_false, Option.any_eq_true]

theorem Test.negated_holds_iff : (Test.truthy key true).holds attributes = true ↔
    ¬(Test.truthy key false).holds attributes = true := by
  rw [Test.holds, Test.holds, Bool.bne_true, Bool.bne_false, Bool.not_eq_true', Bool.not_eq_true]

theorem Test.compare_holds_iff (h : attributes.get? key = some actual) :
    (Test.compare key op literal).holds attributes = true ↔ actual.Stands op literal := by
  rw [Test.holds, h]
  by_cases hnumbers : Json.AreNumbers actual literal
  · obtain ⟨a, b, rfl, rfl⟩ := hnumbers
    rw [Json.stands_number_iff]
    exact op.holds_compare_iff a.toBinary64.value b.toBinary64.value
  · rw [Json.stands_iff_of_not_numbers hnumbers]
    dsimp only
    rw [Json.order?_of_not_numbers hnumbers]
    cases hsame : actual.same literal <;> cases op <;> simp [Comparison.holds]

namespace Expression

/-- What an expression means. A name alone asks for a value that counts as true, a negated name for its absence.
A comparison with a name that is not set asks for a difference, and one with a name that is set asks whether its
value stands in the relation to the literal. -/
theorem meaning (e : Expression) (attributes : Attributes) :
    (∀ key, e.test = .truthy key false →
      (e.holds attributes = true ↔ ∃ value, attributes.get? key = some value ∧ value.truthy = true)) ∧
    (∀ key, e.test = .truthy key true →
      (e.holds attributes = true ↔ ¬∃ value, attributes.get? key = some value ∧ value.truthy = true)) ∧
    ∀ key op literal, e.test = .compare key op literal →
      (attributes.get? key = none → (e.holds attributes = true ↔ op = .ne)) ∧
      ∀ actual, attributes.get? key = some actual →
        (e.holds attributes = true ↔ actual.Stands op literal) := by
  refine ⟨?_, ?_, ?_⟩
  · intro key htest
    rw [Expression.holds, htest]
    exact Test.truthy_holds_iff
  · intro key htest
    rw [Expression.holds, htest]
    exact Test.negated_holds_iff.trans (not_congr Test.truthy_holds_iff)
  · intro key op literal htest
    rw [Expression.holds, htest]
    refine ⟨?_, fun actual hactual => Test.compare_holds_iff hactual⟩
    intro hnone
    rw [Test.holds, hnone]
    exact beq_iff_eq

/-- A text is at most an equal one, though neither is a number. -/
theorem ordering_of_equal_texts :
    ¬∀ (text : String) (e : Expression) (attributes : Attributes) (key : String) (op : Comparison)
      (literal actual : Json), parse text = .ok e → e.test = .compare key op literal →
      op = .lt ∨ op = .le ∨ op = .gt ∨ op = .ge → attributes.get? key = some actual →
      e.holds attributes = true → actual.NumbersIn op literal := by
  intro h
  cases h "a <= 'ok'" ⟨"a <= 'ok'", .compare "a" .le (.string "ok")⟩ ⟨[("a", .string "ok")]⟩ "a" .le
    (.string "ok") (.string "ok") (by rfl) rfl (by simp) rfl (by decide +kernel)

end Expression

end ValvePipeline
