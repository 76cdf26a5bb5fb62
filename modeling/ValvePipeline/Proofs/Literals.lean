import ValvePipeline.Expression.Parser
import ValvePipeline.Proofs.Numerals

/-!
The literals of expressions. A relation says which texts are literals and what their values are; the reader of
literals knows these and no others, so that a text has one value.
-/

set_option autoImplicit false
set_option relaxedAutoImplicit false

namespace ValvePipeline.Expression

def IsInt64 (i : Int) : Prop :=
  -Nat.pow 2 63 ≤ i ∧ i < Nat.pow 2 63

instance : DecidablePred IsInt64 := fun i =>
  inferInstanceAs (Decidable (-Nat.pow 2 63 ≤ i ∧ i < Nat.pow 2 63))

/-- The text is a literal with this value. A numeral that is a whole number in range is never read as a binary
number. -/
inductive Literal : List Char → Json → Prop
  | true : Literal ['t', 'r', 'u', 'e'] (.bool true)
  | false : Literal ['f', 'a', 'l', 's', 'e'] (.bool false)
  | null : Literal ['n', 'u', 'l', 'l'] .null
  | quoted {quote : Char} {inner : List Char} : quote = '"' ∨ quote = '\x27' →
    Literal (quote :: (inner ++ [quote])) (.string (String.ofList inner))
  | whole {cs : List Char} {i : Int} : Decimal.Whole cs i → IsInt64 i → Literal cs (.int i)
  | decimal {cs : List Char} {d : Decimal} {x : Binary64} : Decimal.Spells cs d →
    (∀ i, Decimal.Whole cs i → ¬IsInt64 i) → d.toBinary64? = some x → Literal cs (.number (.float x))

variable {cs inner : List Char} {c quote : Char} {i : Int} {value : Json}

theorem unquote?_eq_some_iff : unquote? quote cs = some inner ↔ cs = quote :: (inner ++ [quote]) := by
  cases cs with
  | nil => simp [unquote?]
  | cons c cs =>
    constructor
    · intro h
      simp only [unquote?, Bool.and_eq_true, decide_eq_true_eq] at h
      split at h
      next hends =>
        obtain ⟨rfl, hlast⟩ := hends
        obtain ⟨kept, rfl⟩ := List.getLast?_eq_some_iff.mp hlast
        cases h
        rw [List.dropLast_concat]
      · cases h
    · intro h
      cases h
      simp [unquote?]

theorem readInteger?_eq_some_iff : readInteger? cs = some i ↔ Decimal.Whole cs i ∧ IsInt64 i := by
  rw [readInteger?, Option.filter_eq_some_iff, Decimal.readInt?_eq_some_iff, IsInt64,
    Bool.and_eq_true, decide_eq_true_eq, decide_eq_true_eq]

theorem readInteger?_eq_none_iff :
    readInteger? cs = none ↔ ∀ i, Decimal.Whole cs i → ¬IsInt64 i := by
  rw [Option.eq_none_iff_forall_not_mem]
  simp only [Option.mem_def, readInteger?_eq_some_iff, not_and]

theorem unquote?_of_ne (h : c ≠ quote) (cs : List Char) : unquote? quote (c :: cs) = none := by
  simp [unquote?, h]

def readNumeral? (cs : List Char) : Option Json :=
  match readInteger? cs with
  | some i => some (.int i)
  | none => ((Decimal.read? cs).bind Decimal.toBinary64?).map fun x => .number (.float x)

theorem readLiteral?_of_ne (ht : c ≠ 't') (hf : c ≠ 'f') (hn : c ≠ 'n') (cs : List Char) :
    readLiteral? (c :: cs) =
      match (unquote? '"' (c :: cs)).or (unquote? '\x27' (c :: cs)) with
      | some inner => some (.string (String.ofList inner))
      | none => readNumeral? (c :: cs) := by
  have differs : ∀ {d : Char} {ds : List Char}, c ≠ d → c :: cs ≠ d :: ds :=
    fun hne h => hne (List.cons.inj h).1
  have htrue : c :: cs ≠ "true".toList := differs ht
  have hfalse : c :: cs ≠ "false".toList := differs hf
  have hnull : c :: cs ≠ "null".toList := differs hn
  rw [readLiteral?, if_neg htrue, if_neg hfalse, if_neg hnull]
  rfl

theorem readLiteral?_of_starts (h : Decimal.Starts c) (cs : List Char) :
    readLiteral? (c :: cs) = readNumeral? (c :: cs) := by
  rw [readLiteral?_of_ne (h.ne (by decide)) (h.ne (by decide)) (h.ne (by decide)),
    unquote?_of_ne (h.ne (by decide)), unquote?_of_ne (h.ne (by decide))]
  rfl

/-- The reader of literals knows the literals and nothing else. -/
theorem readLiteral?_eq_some_iff : readLiteral? cs = some value ↔ Literal cs value := by
  constructor
  · intro h
    unfold readLiteral? at h
    split at h
    next heq =>
      cases h
      rw [heq]
      exact .true
    split at h
    next heq =>
      cases h
      rw [heq]
      exact .false
    split at h
    next heq =>
      cases h
      rw [heq]
      exact .null
    split at h
    next inner hquoted =>
      cases h
      rcases Option.or_eq_some_iff.mp hquoted with hquoted | ⟨-, hquoted⟩
      · rw [unquote?_eq_some_iff.mp hquoted]
        exact .quoted (.inl rfl)
      · rw [unquote?_eq_some_iff.mp hquoted]
        exact .quoted (.inr rfl)
    split at h
    next i hwhole =>
      cases h
      obtain ⟨hwhole, hrange⟩ := readInteger?_eq_some_iff.mp hwhole
      exact .whole hwhole hrange
    next hnone =>
      obtain ⟨x, hx, rfl⟩ := Option.map_eq_some_iff.mp h
      obtain ⟨d, hd, hx⟩ := Option.bind_eq_some_iff.mp hx
      exact .decimal (Decimal.read?_eq_some_iff.mp hd) (readInteger?_eq_none_iff.mp hnone) hx
  · intro h
    cases h with
    | true => rfl
    | false => rfl
    | null => rfl
    | @quoted quote inner hquote =>
      have hread : (unquote? '"' (quote :: (inner ++ [quote]))).or
          (unquote? '\x27' (quote :: (inner ++ [quote]))) = some inner := by
        rcases hquote with rfl | rfl
        · rw [unquote?_eq_some_iff.mpr rfl, Option.some_or]
        · rw [unquote?_of_ne (by decide), Option.none_or, unquote?_eq_some_iff.mpr rfl]
      have hne : quote ≠ 't' ∧ quote ≠ 'f' ∧ quote ≠ 'n' := by
        rcases hquote with rfl | rfl <;> decide
      rw [readLiteral?_of_ne hne.1 hne.2.1 hne.2.2, hread]
    | whole hwhole hrange =>
      obtain ⟨c, rest, rfl, hc⟩ := hwhole.exists_start
      rw [readLiteral?_of_starts hc, readNumeral?,
        readInteger?_eq_some_iff.mpr ⟨hwhole, hrange⟩]
    | decimal hspells hnone hx =>
      obtain ⟨c, rest, rfl, hc⟩ := hspells.exists_start
      rw [readLiteral?_of_starts hc, readNumeral?, readInteger?_eq_none_iff.mpr hnone,
        Decimal.read?_eq_some_iff.mpr hspells, Option.bind_some, hx]
      rfl

theorem Literal.unique {other : Json} (h : Literal cs value) (hother : Literal cs other) :
    other = value := by
  rw [← readLiteral?_eq_some_iff] at h hother
  rw [h] at hother
  exact (Option.some.inj hother).symm

theorem Literal.exists_start (h : Literal cs value) : ∃ c rest, cs = c :: rest ∧ c ≠ '=' := by
  cases h with
  | true => exact ⟨_, _, rfl, by decide⟩
  | false => exact ⟨_, _, rfl, by decide⟩
  | null => exact ⟨_, _, rfl, by decide⟩
  | quoted hquote => exact ⟨_, _, rfl, by rcases hquote with rfl | rfl <;> decide⟩
  | whole hwhole _ =>
    obtain ⟨c, rest, rfl, hstart⟩ := hwhole.exists_start
    exact ⟨c, rest, rfl, hstart.ne (by decide)⟩
  | decimal hspells _ _ =>
    obtain ⟨c, rest, rfl, hstart⟩ := hspells.exists_start
    exact ⟨c, rest, rfl, hstart.ne (by decide)⟩

theorem Literal.stops_equals (h : Literal cs value) : Text.Stops (· == '=') cs := by
  obtain ⟨c, rest, rfl, hc⟩ := h.exists_start
  exact Text.stops_cons (p := (· == '=')) (beq_false_of_ne hc) rest

theorem Literal.ne_nil (h : Literal cs value) : cs ≠ [] := by
  obtain ⟨c, rest, rfl, -⟩ := h.exists_start
  exact List.cons_ne_nil c rest

end ValvePipeline.Expression
