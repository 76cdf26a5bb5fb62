import ValvePipeline.Proofs.Grammar

/-!
Displayed expressions are expressions again. The display puts one blank around the operator and shows the
literal in its compact form. A name of a value and a whole number are read back as they are; of a text the
reader takes everything between the quotes, escapes and all.
-/

set_option autoImplicit false
set_option relaxedAutoImplicit false

namespace ValvePipeline

namespace Json

def IsPlain (c : Char) : Prop :=
  c ≠ '"' ∧ c ≠ '\\' ∧ ' ' ≤ c

instance : DecidablePred IsPlain :=
  fun c => inferInstanceAs (Decidable (c ≠ '"' ∧ c ≠ '\\' ∧ ' ' ≤ c))

def escaped (s : String) : String :=
  String.ofList (s.toList.flatMap escapedChar)

theorem escapedChar_of_plain {c : Char} (h : IsPlain c) : escapedChar c = [c] := by
  obtain ⟨hquote, hbackslash, hspace⟩ := h
  rw [escapedChar, if_neg hquote, if_neg hbackslash, if_pos hspace]

theorem newline_not_mem_toDigits : ∀ n < 32, '\n' ∉ Nat.toDigits 16 n := by
  decide

theorem escapedChar_of_not_plain {c : Char} (h : ¬IsPlain c) :
    ∃ d ds, escapedChar c = '\\' :: d :: ds ∧ '\n' ∉ d :: ds := by
  by_cases hquote : c = '"'
  · exact ⟨'"', [], by rw [escapedChar, if_pos hquote], by decide⟩
  by_cases hbackslash : c = '\\'
  · exact ⟨'\\', [], by rw [escapedChar, if_neg hquote, if_pos hbackslash], by decide⟩
  have hspace : ¬ ' ' ≤ c := fun hspace => h ⟨hquote, hbackslash, hspace⟩
  rw [escapedChar, if_neg hquote, if_neg hbackslash, if_neg hspace]
  split
  · exact ⟨'n', [], rfl, by decide⟩
  split
  · exact ⟨'t', [], rfl, by decide⟩
  split
  · exact ⟨'r', [], rfl, by decide⟩
  split
  · exact ⟨'b', [], rfl, by decide⟩
  split
  · exact ⟨'f', [], rfl, by decide⟩
  · refine ⟨'u', _, rfl, ?_⟩
    have hsmall : c.toNat < 32 := by
      rw [Char.le_def, UInt32.le_iff_toNat_le] at hspace
      exact Nat.not_le.mp hspace
    simpa using newline_not_mem_toDigits c.toNat hsmall

theorem newline_not_mem_escaped (cs : List Char) : '\n' ∉ cs.flatMap escapedChar := by
  intro hmem
  obtain ⟨c, -, hc⟩ := List.mem_flatMap.mp hmem
  by_cases h : IsPlain c
  · rw [escapedChar_of_plain h, List.mem_singleton] at hc
    subst hc
    exact absurd h.2.2 (by decide)
  · obtain ⟨d, ds, hescape, hline⟩ := escapedChar_of_not_plain h
    rw [hescape, List.mem_cons] at hc
    exact hline (hc.resolve_left (by decide))

theorem length_le_length_escaped (cs : List Char) : cs.length ≤ (cs.flatMap escapedChar).length := by
  induction cs with
  | nil => exact Nat.le_refl 0
  | cons c cs ih =>
    rw [List.flatMap_cons, List.length_append, List.length_cons]
    by_cases h : IsPlain c
    · rw [escapedChar_of_plain h, List.length_singleton]
      omega
    · obtain ⟨d, ds, hescape, -⟩ := escapedChar_of_not_plain h
      rw [hescape, List.length_cons, List.length_cons]
      omega

theorem flatMap_escapedChar_eq_iff (cs : List Char) :
    cs.flatMap escapedChar = cs ↔ ∀ c ∈ cs, IsPlain c := by
  induction cs with
  | nil => simp
  | cons c cs ih =>
    rw [List.flatMap_cons, List.forall_mem_cons, ← ih]
    by_cases h : IsPlain c
    · simp [escapedChar_of_plain h, h]
    · obtain ⟨d, ds, hescape, -⟩ := escapedChar_of_not_plain h
      refine iff_of_false (fun heq => ?_) fun hall => h hall.1
      have hlength := congrArg List.length heq
      have hrest := length_le_length_escaped cs
      rw [hescape, List.length_append, List.length_cons, List.length_cons, List.length_cons] at hlength
      omega

theorem escaped_eq_iff (s : String) : escaped s = s ↔ ∀ c ∈ s.toList, IsPlain c := by
  rw [escaped, ← flatMap_escapedChar_eq_iff, ← String.toList_inj, String.toList_ofList]

end Json

namespace Decimal

theorem areDigits_digitsOf (n : Nat) : AreDigits (Binary64.digitsOf n) :=
  fun _ hd => Nat.isDigit_of_mem_toDigits (by decide) (by decide) hd

theorem ofDigits_digitsOf (n : Nat) : ofDigits (Binary64.digitsOf n) = n := by
  have hread := Nat.ofDigitChars_ten_toDigits (n := n)
  rw [Nat.ofDigitChars_eq_foldl] at hread
  exact hread

theorem whole_print (i : Int) : Whole (Number.int i).print i := by
  have spells {sign : List Char} {negative : Bool} (hsign : Sign sign negative) (n : Nat) :
      Whole (sign ++ Binary64.digitsOf n) (if negative then -(n : Int) else n) := by
    have hwhole : Whole (sign ++ Binary64.digitsOf n)
        (if negative then -(ofDigits (Binary64.digitsOf n) : Int)
          else ofDigits (Binary64.digitsOf n)) :=
      .intro hsign Nat.toDigits_ne_nil (areDigits_digitsOf n)
    rwa [ofDigits_digitsOf] at hwhole
  cases i with
  | ofNat n => exact spells .absent n
  | negSucc n => exact spells .minus (n + 1)

end Decimal

namespace Expression

variable {cs : List Char} {value : Json} {test : Test} {phrase : Phrase}

theorem standsAsLiteral_printText (s : String) : StandsAsLiteral (Json.printText s) where
  ne_nil := List.cons_ne_nil _ _
  oneLine := by
    simpa [Json.printText] using Json.newline_not_mem_escaped s.toList
  tight := by
    constructor
    · rintro _ ⟨⟩
      decide
    · intro c hc
      rw [Json.printText, ← List.cons_append, List.getLast?_concat] at hc
      cases hc
      decide
  exists_value := ⟨_, .quoted (.inl rfl)⟩

theorem Literal.stands (h : Literal cs value) (hblank : ∀ c ∈ cs, Text.isBlank c = Bool.false) :
    StandsAsLiteral cs where
  ne_nil := h.ne_nil
  oneLine hmem := absurd (hblank _ hmem) (by decide)
  tight := Text.tight_of_forall hblank
  exists_value := ⟨value, h⟩

/-- What is read back of a displayed literal: a text comes with its escapes. -/
def rereadLiteral : Json → Json
  | .string s => .string (Json.escaped s)
  | value => value

def reread : Test → Test
  | .truthy key negated => .truthy key negated
  | .compare key op literal => .compare key op (rereadLiteral literal)

/-- The literal of the test is no text with characters that the compact form escapes. -/
def ShowsPlainly : Test → Prop
  | .compare _ _ (.string s) => ∀ c ∈ s.toList, Json.IsPlain c
  | _ => True

theorem reread_eq_iff (test : Test) : reread test = test ↔ ShowsPlainly test := by
  cases test with
  | truthy key negated => exact iff_of_true rfl trivial
  | compare key op literal =>
    cases literal with
    | string s =>
      rw [reread, rereadLiteral, Test.compare.injEq, Json.string.injEq, Json.escaped_eq_iff]
      simp [ShowsPlainly]
    | _ => exact iff_of_true rfl trivial

theorem Literal.compact (h : Literal cs value) (hfloat : ∀ x, value ≠ .number (.float x)) :
    StandsAsLiteral value.print ∧ Literal value.print (rereadLiteral value) := by
  cases h with
  | true => exact ⟨Literal.true.stands (by simp [Text.isBlank]), .true⟩
  | false => exact ⟨Literal.false.stands (by simp [Text.isBlank]), .false⟩
  | null => exact ⟨Literal.null.stands (by simp [Text.isBlank]), .null⟩
  | quoted => exact ⟨standsAsLiteral_printText _, .quoted (.inl rfl)⟩
  | @whole _ i hwhole hrange =>
    exact ⟨.of_whole (Decimal.whole_print i) hrange, .whole (Decimal.whole_print i) hrange⟩
  | decimal => exact absurd rfl (hfloat _)

/-- The display of a test spells a phrase that asks for the test, with the literal as it is read back. -/
theorem exists_phrase_of_display (hspells : Spells cs phrase) (hasks : phrase.Asks test)
    (hfloat : ∀ key op x, test ≠ .compare key op (.number (.float x))) :
    ∃ displayed, Spells test.display.toList displayed ∧ displayed.Asks (reread test) := by
  have hnone : Text.AllBlank [] := by decide
  have hspace : Text.AllBlank [' '] := by decide
  cases hasks with
  | @bare negated name =>
    cases hspells with
    | bare _ _ _ hname _ =>
      have hdisplay : (Test.truthy (String.ofList name) negated).display.toList =
          [] ++ (bang negated ++ ([] ++ (name ++ []))) := by
        cases negated <;> simp [Test.display, bang]
      rw [hdisplay]
      exact ⟨_, .bare negated hnone hnone hname hnone, .bare⟩
  | @comparison name literal op value hvalue =>
    cases hspells with
    | comparison _ _ hname _ _ _ _ =>
      obtain ⟨hstands, hread⟩ := hvalue.compact fun x hx => hfloat _ op x (by rw [hx])
      have hdisplay : (Test.compare (String.ofList name) op value).display.toList =
          [] ++ (name ++ ([' '] ++ (op.symbol.toList ++ ([' '] ++ (value.print ++ []))))) := by
        simp [Test.display, Json.compact]
      rw [hdisplay]
      exact ⟨_, .comparison op hnone hname hspace hspace hstands hnone, .comparison hread⟩

/-- The display of an expression without a binary number is an expression: the same one, with the same answers,
but that a text is read back with the escapes of its compact form. So it is the same one exactly when the
text has no double quotes, backslashes and control characters. -/
theorem display_rereads {text : String} {e : Expression} (h : parse text = .ok e)
    (hfloat : ∀ key op x, e.test ≠ .compare key op (.number (.float x))) :
    ∃ e', parse e.display = .ok e' ∧ (e'.test = e.test ↔ ShowsPlainly e.test) ∧
      (ShowsPlainly e.test → ∀ attributes, e'.holds attributes = e.holds attributes) ∧
      ∀ key op s, e.test = .compare key op (.string s) →
        e'.test = .compare key op (.string (Json.escaped s)) := by
  obtain ⟨phrase, hspells, hasks⟩ := exists_phrase_of_readTest (parse_eq_ok_iff.mp h).1
  obtain ⟨displayed, hspells', hasks'⟩ := exists_phrase_of_display hspells hasks hfloat
  have hparse : parse e.display = .ok ⟨Text.trim e.display, reread e.test⟩ :=
    parse_eq_ok_iff.mpr ⟨hspells'.readTest hasks', rfl⟩
  refine ⟨_, hparse, reread_eq_iff e.test, ?_, ?_⟩
  · intro hplain attributes
    have hsame : reread e.test = e.test := (reread_eq_iff e.test).mpr hplain
    rw [Expression.holds, Expression.holds, hsame]
  · intro key op s htest
    rw [htest]
    rfl

theorem display_rereads_of_quoted :
    parse " who  !=  'it is' " = .ok ⟨"who  !=  'it is'", .compare "who" .ne (.string "it is")⟩ ∧
      ∃ e', parse "who != \"it is\"" = .ok e' ∧ e'.test = .compare "who" .ne (.string "it is") := by
  have hread : parse " who  !=  'it is' " =
      .ok ⟨"who  !=  'it is'", .compare "who" .ne (.string "it is")⟩ := rfl
  obtain ⟨e', he', hsame, -⟩ := display_rereads hread (by simp)
  have hplain : ∀ c ∈ "it is".toList, Json.IsPlain c := by simp [Json.IsPlain]
  exact ⟨hread, e', he', hsame.mpr hplain⟩

/-- A text with a double quote is not read back as it is. -/
theorem display_escapes :
    ¬∀ (text : String) (e : Expression), parse text = .ok e →
      (∀ key op x, e.test ≠ .compare key op (.number (.float x))) →
      ∃ e', parse e.display = .ok e' ∧ e'.test = e.test := by
  intro h
  have hread : parse "a == 'x\"y'" = .ok ⟨"a == 'x\"y'", .compare "a" .eq (.string "x\"y")⟩ := rfl
  obtain ⟨e', he', hsame⟩ := h _ _ hread (by simp)
  have hback : parse "a == \"x\\\"y\"" =
      .ok ⟨"a == \"x\\\"y\"", .compare "a" .eq (.string "x\\\"y")⟩ := rfl
  cases he'.symm.trans hback
  simp at hsame

end Expression

end ValvePipeline
