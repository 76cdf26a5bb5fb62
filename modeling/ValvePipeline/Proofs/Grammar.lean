import ValvePipeline.Proofs.Literals

/-!
The grammar of expressions. A text is a phrase, a name alone or a comparison, with blanks around its tokens; a
relation says which phrases a text spells and another one what a phrase asks. The reader accepts the texts
that spell a phrase and no others, a text spells at most one, and blanks around the tokens do not matter.
-/

set_option autoImplicit false
set_option relaxedAutoImplicit false

namespace ValvePipeline.Expression

def IsLetter (c : Char) : Prop :=
  ('A' ≤ c ∧ c ≤ 'Z') ∨ ('a' ≤ c ∧ c ≤ 'z')

/-- A name starts with a letter or an underscore, and goes on with letters, digits, underscores, points and
hyphens. -/
inductive Name : List Char → Prop
  | intro {c : Char} {cs : List Char} : IsLetter c ∨ c = '_' →
    (∀ d ∈ cs, IsLetter d ∨ ('0' ≤ d ∧ d ≤ '9') ∨ d = '_' ∨ d = '.' ∨ d = '-') → Name (c :: cs)

/-- A text that can stand as the literal of a comparison: it stays on one line, neither begins nor ends with
a blank, and has a value. -/
structure StandsAsLiteral (cs : List Char) : Prop where
  ne_nil : cs ≠ []
  oneLine : '\n' ∉ cs
  tight : Text.Tight cs
  exists_value : ∃ value, Literal cs value

inductive Phrase where
  | bare (negated : Bool) (name : List Char)
  | comparison (name : List Char) (op : Comparison) (literal : List Char)

def bang (negated : Bool) : List Char :=
  if negated then ['!'] else []

/-- The text consists of the tokens of the phrase and of blanks between, before and after them. -/
inductive Spells : List Char → Phrase → Prop
  | bare {before between name after : List Char} (negated : Bool) : Text.AllBlank before →
    Text.AllBlank between → Name name → Text.AllBlank after →
    Spells (before ++ (bang negated ++ (between ++ (name ++ after)))) (.bare negated name)
  | comparison {before name left right literal after : List Char} (op : Comparison) :
    Text.AllBlank before → Name name → Text.AllBlank left → Text.AllBlank right →
    StandsAsLiteral literal → Text.AllBlank after →
    Spells (before ++ (name ++ (left ++ (op.symbol.toList ++ (right ++ (literal ++ after))))))
      (.comparison name op literal)

inductive Phrase.Asks : Phrase → Test → Prop
  | bare {negated : Bool} {name : List Char} :
    Phrase.Asks (.bare negated name) (.truthy (String.ofList name) negated)
  | comparison {name literal : List Char} {op : Comparison} {value : Json} : Literal literal value →
    Phrase.Asks (.comparison name op literal) (.compare (String.ofList name) op value)

variable {cs name rest left right literal after span : List Char} {c : Char} {negated : Bool}
  {op : Comparison} {value : Json} {phrase other : Phrase} {test : Test}

theorem isAlpha_iff : c.isAlpha = true ↔ IsLetter c := by
  have hletter : c.isAlpha = (decide ('A' ≤ c ∧ c ≤ 'Z') || (decide ('a' ≤ c) && decide (c ≤ 'z'))) := rfl
  rw [hletter, Bool.or_eq_true, Bool.and_eq_true, decide_eq_true_eq, decide_eq_true_eq, decide_eq_true_eq,
    IsLetter]

theorem startsName_iff : startsName c = true ↔ IsLetter c ∨ c = '_' := by
  rw [startsName, Bool.or_eq_true, isAlpha_iff, beq_iff_eq]

theorem continuesName_iff : continuesName c = true ↔
    IsLetter c ∨ ('0' ≤ c ∧ c ≤ '9') ∨ c = '_' ∨ c = '.' ∨ c = '-' := by
  have halnum : c.isAlphanum = (c.isAlpha || (decide ('0' ≤ c) && decide (c ≤ '9'))) := rfl
  simp only [continuesName, halnum, Bool.or_eq_true, isAlpha_iff, Bool.and_eq_true, decide_eq_true_eq,
    beq_iff_eq, or_assoc]

theorem not_blank_of_continuesName (h : continuesName c = true) : Text.isBlank c = false := by
  have hcode : c.val.toNat = c.toNat := rfl
  simp only [continuesName_iff, IsLetter, Char.le_def, UInt32.le_iff_toNat_le, ← Char.toNat_inj, hcode,
    Char.reduceVal, UInt32.reduceToNat, Char.reduceToNat] at h
  simp only [Text.isBlank, Bool.or_eq_false_iff, Bool.and_eq_false_iff, decide_eq_false_iff_not,
    beq_eq_false_iff_ne]
  omega

theorem continuesName_of_startsName (h : startsName c = true) : continuesName c = true := by
  rw [continuesName_iff]
  rcases startsName_iff.mp h with h | h
  · exact .inl h
  · exact .inr (.inr (.inl h))

theorem Name.exists_start (h : Name name) :
    ∃ c cs, name = c :: cs ∧ startsName c = true ∧ ∀ d ∈ cs, continuesName d = true := by
  obtain ⟨hc, hcs⟩ := h
  exact ⟨_, _, rfl, startsName_iff.mpr hc, fun d hd => continuesName_iff.mpr (hcs d hd)⟩

theorem Name.stops_blank (h : Name name) (rest : List Char) : Text.Stops Text.isBlank (name ++ rest) := by
  obtain ⟨c, cs, rfl, hc, -⟩ := h.exists_start
  exact Text.stops_cons (not_blank_of_continuesName (continuesName_of_startsName hc)) _

theorem stops_name_of_blank (h : Text.AllBlank cs) (hrest : Text.Stops continuesName rest) :
    Text.Stops continuesName (cs ++ rest) :=
  h.stops (fun _ => not_blank_of_continuesName) hrest

theorem Name.readName? (h : Name name) (hrest : Text.Stops continuesName rest) :
    readName? (name ++ rest) = some (name, rest) := by
  obtain ⟨c, cs, rfl, hc, hcs⟩ := h.exists_start
  rw [List.cons_append, Expression.readName?, if_pos hc, Text.takeWhile_of_stops hcs hrest,
    Text.dropWhile_of_stops hcs hrest]

theorem Name.of_readName? (h : Expression.readName? cs = some (name, rest)) :
    Name name ∧ cs = name ++ rest := by
  cases cs with
  | nil => cases h
  | cons c cs =>
    by_cases hc : startsName c = true
    · rw [Expression.readName?, if_pos hc] at h
      cases h
      refine ⟨.intro (startsName_iff.mp hc) fun d hd => continuesName_iff.mp (Text.mem_takeWhile hd), ?_⟩
      rw [List.cons_append, List.takeWhile_append_dropWhile]
    · rw [Expression.readName?, if_neg hc] at h
      cases h

theorem name_iff : Name name ↔ readName? name = some (name, []) := by
  constructor
  · intro h
    have hread := h.readName? (Text.stops_nil continuesName)
    rwa [List.append_nil] at hread
  · intro h
    exact (Name.of_readName? h).1

def splitBang (cs : List Char) : Bool × List Char :=
  match cs with
  | '!' :: rest => (true, rest)
  | cs => (false, cs)

theorem bang_splitBang (cs : List Char) : bang (splitBang cs).1 ++ (splitBang cs).2 = cs := by
  unfold splitBang
  split <;> rfl

theorem Name.splitBang (h : Name name) (rest : List Char) :
    splitBang (name ++ rest) = (false, name ++ rest) := by
  obtain ⟨c, cs, rfl, hc, -⟩ := h.exists_start
  unfold Expression.splitBang
  split
  next heq =>
    cases heq
    cases hc
  · rfl

theorem readBare?_eq (cs : List Char) : readBare? cs =
    match readName? (Text.trimFront (splitBang (Text.trimFront cs)).2) with
    | some (name, rest) =>
      if rest.all Text.isBlank then
        some (.truthy (String.ofList name) (splitBang (Text.trimFront cs)).1)
      else none
    | none => none := rfl

theorem exists_bare_of_readBare? (h : readBare? cs = some test) :
    ∃ phrase, Spells cs phrase ∧ phrase.Asks test := by
  obtain ⟨before, hbefore, hblank⟩ := Text.exists_front cs
  obtain ⟨between, hbetween, hblanks⟩ := Text.exists_front (splitBang (Text.trimFront cs)).2
  rw [readBare?_eq] at h
  split at h
  next name after hread =>
    split at h
    next hafter =>
      cases h
      obtain ⟨hname, hrest⟩ := Name.of_readName? hread
      have hspells := Spells.bare (splitBang (Text.trimFront cs)).1 hblank hblanks hname
        (List.all_eq_true.mp hafter)
      rw [← hrest, ← hbetween, bang_splitBang, ← hbefore] at hspells
      exact ⟨_, hspells, .bare⟩
    · cases h
  · cases h

theorem splitBang_of_bare {before between : List Char} (hbefore : Text.AllBlank before)
    (hbetween : Text.AllBlank between) (hname : Name name) (negated : Bool) (after : List Char) :
    ∃ blank, Text.AllBlank blank ∧
      splitBang (Text.trimFront (before ++ (bang negated ++ (between ++ (name ++ after))))) =
        (negated, blank ++ (name ++ after)) := by
  cases negated with
  | true =>
    have hstops : Text.Stops Text.isBlank ('!' :: (between ++ (name ++ after))) :=
      Text.stops_cons (by decide) _
    refine ⟨between, hbetween, ?_⟩
    show splitBang (Text.trimFront (before ++ '!' :: (between ++ (name ++ after)))) = _
    rw [Text.trimFront_of_stops hbefore hstops]
    rfl
  | false =>
    refine ⟨[], nofun, ?_⟩
    show splitBang (Text.trimFront (before ++ (between ++ (name ++ after)))) = (false, name ++ after)
    rw [← List.append_assoc, Text.trimFront_of_stops (hbefore.append hbetween) (hname.stops_blank after),
      hname.splitBang]

theorem readBare?_of_bare {before between : List Char} (hbefore : Text.AllBlank before)
    (hbetween : Text.AllBlank between) (hname : Name name) (hafter : Text.AllBlank after) :
    readBare? (before ++ (bang negated ++ (between ++ (name ++ after)))) =
      some (.truthy (String.ofList name) negated) := by
  obtain ⟨blank, hblank, hsplit⟩ := splitBang_of_bare hbefore hbetween hname negated after
  have hstops := stops_name_of_blank hafter (Text.stops_nil continuesName)
  rw [List.append_nil] at hstops
  rw [readBare?_eq, hsplit]
  dsimp only
  rw [Text.trimFront_of_stops hblank (hname.stops_blank after), hname.readName? hstops]
  exact if_pos (List.all_eq_true.mpr hafter)

theorem symbol_stops (op : Comparison) (rest : List Char) :
    Text.Stops Text.isBlank (op.symbol.toList ++ rest) ∧
      Text.Stops continuesName (op.symbol.toList ++ rest) := by
  cases op <;> exact ⟨Text.stops_cons (by decide) _, Text.stops_cons (by decide) _⟩

theorem symbol_ne_nil (op : Comparison) (rest : List Char) : op.symbol.toList ++ rest ≠ [] := by
  cases op <;> exact List.cons_ne_nil _ _

theorem readName?_of_comparison {before : List Char} (hbefore : Text.AllBlank before) (hname : Name name)
    (hleft : Text.AllBlank left) (op : Comparison) (rest : List Char) :
    Text.trimFront (before ++ (name ++ (left ++ (op.symbol.toList ++ rest)))) =
        name ++ (left ++ (op.symbol.toList ++ rest)) ∧
      readName? (name ++ (left ++ (op.symbol.toList ++ rest))) =
        some (name, left ++ (op.symbol.toList ++ rest)) :=
  ⟨Text.trimFront_of_stops hbefore (hname.stops_blank _),
    hname.readName? (stops_name_of_blank hleft (symbol_stops op rest).2)⟩

theorem readBare?_of_comparison {before : List Char} (hbefore : Text.AllBlank before) (hname : Name name)
    (hleft : Text.AllBlank left) (op : Comparison) (rest : List Char) :
    readBare? (before ++ (name ++ (left ++ (op.symbol.toList ++ rest)))) = none := by
  obtain ⟨hfront, hread⟩ := readName?_of_comparison hbefore hname hleft op rest
  have hmore : ¬(left ++ (op.symbol.toList ++ rest)).all Text.isBlank = true := by
    intro hall
    have hblank := List.all_eq_true.mp hall
    exact symbol_ne_nil op rest
      ((symbol_stops op rest).1.eq_nil fun c hc => hblank c (List.mem_append_right left hc))
  rw [readBare?_eq, hfront, hname.splitBang, (hname.stops_blank _).trimFront, hread]
  exact if_neg hmore

theorem afterSymbol?_eq_some_iff (symbol cs rest : List Char) :
    afterSymbol? symbol cs = some rest ↔ cs = symbol ++ rest := by
  induction symbol generalizing cs with
  | nil => simp [afterSymbol?]
  | cons s symbol ih =>
    cases cs with
    | nil => simp [afterSymbol?]
    | cons c cs =>
      by_cases h : s = c
      · simp [afterSymbol?, h, ih]
      · simp [afterSymbol?, h, Ne.symm h]

theorem StandsAsLiteral.literalSpan? (h : StandsAsLiteral literal) (hright : Text.AllBlank right)
    (hafter : Text.AllBlank after) : Expression.literalSpan? (right ++ (literal ++ after)) = some literal := by
  rw [Expression.literalSpan?, h.tight.trimmed hright hafter]
  obtain ⟨c, rest, rfl⟩ := List.exists_cons_of_ne_nil h.ne_nil
  exact if_neg (by simpa using h.oneLine)

theorem standsAsLiteral_of_span (h : literalSpan? cs = some span) (hvalue : Literal span value) :
    Text.trimmed cs = span ∧ StandsAsLiteral span := by
  unfold literalSpan? at h
  split at h
  · split at h
    · cases h
      exact absurd rfl hvalue.ne_nil
    · cases h
  next hne =>
    split at h
    · cases h
    next honeLine =>
      cases h
      exact ⟨rfl, hvalue.ne_nil, by simpa using honeLine, Text.tight_trimmed cs, value, hvalue⟩

theorem not_blank_of_starts {c : Char} (h : Decimal.Starts c) : Text.isBlank c = false := by
  rcases h with hdigit | rfl | rfl | rfl
  · refine not_blank_of_continuesName ?_
    rw [continuesName, Char.isAlphanum, hdigit, Bool.or_true]
    rfl
  · decide
  · decide
  · decide

theorem StandsAsLiteral.of_whole {i : Int} (hwhole : Decimal.Whole literal i)
    (hrange : IsInt64 i) : StandsAsLiteral literal where
  ne_nil := hwhole.ne_nil
  oneLine hmem := (hwhole.starts _ hmem).ne (by decide) rfl
  tight := Text.tight_of_forall fun c hc => not_blank_of_starts (hwhole.starts c hc)
  exists_value := ⟨_, .whole hwhole hrange⟩

/-- The first operator that fits is the one that was written: a literal does not begin with the end of a
longer operator. -/
theorem findSome?_operators (op : Comparison) (hspan : literalSpan? rest = some span)
    (hstops : Text.Stops (· == '=') rest) :
    (operators.findSome? fun op' => do
      let span ← literalSpan? (← afterSymbol? op'.symbol.toList (op.symbol.toList ++ rest))
      return (name, op', span)) = some (name, op, span) := by
  have hnone : afterSymbol? ['='] rest = none := by
    cases rest with
    | nil => rfl
    | cons c rest =>
      have hc : '=' ≠ c := Ne.symm (ne_of_beq_false (hstops c rfl))
      rw [afterSymbol?, if_neg hc]
  cases op <;> simp [operators, Comparison.symbol, afterSymbol?, hspan, hnone]

theorem splitComparison?_of_comparison {before : List Char} (hbefore : Text.AllBlank before)
    (hname : Name name) (hleft : Text.AllBlank left) (hright : Text.AllBlank right)
    (hliteral : StandsAsLiteral literal) (hafter : Text.AllBlank after) (op : Comparison) :
    splitComparison?
        (before ++ (name ++ (left ++ (op.symbol.toList ++ (right ++ (literal ++ after)))))) =
      some (name, op, literal) := by
  obtain ⟨hfront, hread⟩ :=
    readName?_of_comparison hbefore hname hleft op (right ++ (literal ++ after))
  have hstops : Text.Stops (· == '=') (right ++ (literal ++ after)) := by
    obtain ⟨value, hvalue⟩ := hliteral.exists_value
    refine hright.stops ?_ (hvalue.stops_equals.append hliteral.ne_nil after)
    intro c hc
    rw [eq_of_beq hc]
    rfl
  rw [splitComparison?, hfront, hread]
  show (operators.findSome? fun op' => do
      let span ← Expression.literalSpan? (← afterSymbol? op'.symbol.toList (Text.trimFront
        (left ++ (op.symbol.toList ++ (right ++ (literal ++ after))))))
      return (name, op', span)) = _
  rw [Text.trimFront_of_stops hleft (symbol_stops op _).1]
  exact findSome?_operators op (hliteral.literalSpan? hright hafter) hstops

theorem spells_of_splitComparison? (h : splitComparison? cs = some (name, op, span))
    (hvalue : Literal span value) : Spells cs (.comparison name op span) := by
  obtain ⟨before, hcs, hbefore⟩ := Text.exists_front cs
  obtain ⟨⟨name', rest⟩, hread, h⟩ := Option.bind_eq_some_iff.mp h
  obtain ⟨left, hrest, hleft⟩ := Text.exists_front rest
  obtain ⟨op', -, hop⟩ := List.exists_of_findSome?_eq_some h
  obtain ⟨tail, htail, hop⟩ := Option.bind_eq_some_iff.mp hop
  obtain ⟨span', hspan, hop⟩ := Option.bind_eq_some_iff.mp hop
  cases hop
  obtain ⟨hname, hfront⟩ := Name.of_readName? hread
  obtain ⟨htrimmed, hliteral⟩ := standsAsLiteral_of_span hspan hvalue
  obtain ⟨right, after, hplace, hright, hafter⟩ := Text.exists_trimmed tail
  rw [htrimmed] at hplace
  rw [hcs, hfront, hrest, (afterSymbol?_eq_some_iff _ _ _).mp htail, hplace]
  exact .comparison op hbefore hname hleft hright hliteral hafter

theorem exists_phrase_of_readTest (h : readTest cs = .ok test) :
    ∃ phrase, Spells cs phrase ∧ phrase.Asks test := by
  unfold readTest at h
  split at h
  next hbare =>
    cases h
    exact exists_bare_of_readBare? hbare
  split at h
  · cases h
  next name op span hsplit =>
    split at h
    · cases h
    next hliteral =>
      cases h
      have hvalue := readLiteral?_eq_some_iff.mp hliteral
      exact ⟨_, spells_of_splitComparison? hsplit hvalue, .comparison hvalue⟩

/-- The reader finds the tokens of the phrase in the text. -/
def Phrase.FoundIn (cs : List Char) : Phrase → Prop
  | .bare negated name => readBare? cs = some (.truthy (String.ofList name) negated)
  | .comparison name op literal =>
    readBare? cs = none ∧ splitComparison? cs = some (name, op, literal)

theorem Spells.found (h : Spells cs phrase) : phrase.FoundIn cs := by
  cases h with
  | bare negated hbefore hbetween hname hafter =>
    exact readBare?_of_bare hbefore hbetween hname hafter
  | comparison op hbefore hname hleft hright hliteral hafter =>
    exact ⟨readBare?_of_comparison hbefore hname hleft op _,
      splitComparison?_of_comparison hbefore hname hleft hright hliteral hafter op⟩

theorem Spells.readTest (h : Spells cs phrase) (hasks : phrase.Asks test) : readTest cs = .ok test := by
  have hfound := h.found
  cases hasks with
  | bare => rw [Expression.readTest, hfound]
  | comparison hvalue =>
    rw [Expression.readTest, hfound.1, hfound.2]
    dsimp only
    rw [readLiteral?_eq_some_iff.mpr hvalue]

theorem Spells.exists_test (h : Spells cs phrase) : ∃ test, phrase.Asks test := by
  cases h with
  | bare => exact ⟨_, .bare⟩
  | comparison _ _ _ _ _ hliteral _ =>
    obtain ⟨value, hvalue⟩ := hliteral.exists_value
    exact ⟨_, .comparison hvalue⟩

theorem Phrase.Asks.unique {test' : Test} (h : phrase.Asks test) (h' : phrase.Asks test') :
    test' = test := by
  cases h with
  | bare =>
    cases h'
    rfl
  | comparison hvalue =>
    cases h' with
    | comparison hvalue' => rw [hvalue.unique hvalue']

/-- A text spells at most one phrase: the tokens are those that the reader finds. -/
theorem Spells.unique (h : Spells cs phrase) (hother : Spells cs other) : other = phrase := by
  have hfound := h.found
  have hfound' := hother.found
  cases phrase with
  | bare negated name =>
    cases other with
    | bare negated' name' =>
      obtain ⟨hname, hnegated⟩ := Test.truthy.inj (Option.some.inj (hfound.symm.trans hfound'))
      rw [String.ofList_injective hname, hnegated]
    | comparison name' op' literal' =>
      cases hfound.symm.trans hfound'.1
  | comparison name op literal =>
    cases other with
    | bare negated' name' => cases hfound.1.symm.trans hfound'
    | comparison name' op' literal' =>
      cases hfound.2.symm.trans hfound'.2
      rfl

theorem parse_eq_ok_iff {text : String} {e : Expression} :
    parse text = .ok e ↔ readTest text.toList = .ok e.test ∧ e.source = Text.trim text := by
  unfold parse
  split
  next test hread =>
    rw [hread]
    constructor
    · intro h
      cases h
      exact ⟨rfl, rfl⟩
    · rintro ⟨htest, hsource⟩
      cases htest
      rw [← hsource]
  next misreading hread =>
    rw [hread]
    constructor
    · intro h
      cases h
    · rintro ⟨h, -⟩
      cases h

/-- An expression is read from a text exactly when the text spells a phrase. It spells no other phrase, the
expression asks what the phrase asks, and its source is the text without the blanks around it; any other text
that spells the phrase gives the same test. -/
theorem grammar_exact (text : String) :
    ((∃ e, parse text = .ok e) ↔ ∃ phrase, Spells text.toList phrase) ∧
    ∀ phrase, Spells text.toList phrase →
      (∀ other, Spells text.toList other → other = phrase) ∧
      ∃ e, parse text = .ok e ∧ e.source = Text.trim text ∧
        (∀ test, phrase.Asks test ↔ test = e.test) ∧
        ∀ text' : String, Spells text'.toList phrase → ∃ e', parse text' = .ok e' ∧ e'.test = e.test := by
  constructor
  · constructor
    · rintro ⟨e, he⟩
      obtain ⟨phrase, hspells, -⟩ := exists_phrase_of_readTest (parse_eq_ok_iff.mp he).1
      exact ⟨phrase, hspells⟩
    · rintro ⟨phrase, hspells⟩
      obtain ⟨test, hasks⟩ := hspells.exists_test
      exact ⟨⟨Text.trim text, test⟩, parse_eq_ok_iff.mpr ⟨hspells.readTest hasks, rfl⟩⟩
  · intro phrase hspells
    refine ⟨fun other hother => hspells.unique hother, ?_⟩
    obtain ⟨test, hasks⟩ := hspells.exists_test
    refine ⟨⟨Text.trim text, test⟩, parse_eq_ok_iff.mpr ⟨hspells.readTest hasks, rfl⟩, rfl, ?_, ?_⟩
    · intro test'
      constructor
      · intro hasks'
        exact hasks.unique hasks'
      · rintro rfl
        exact hasks
    · intro text' hspells'
      exact ⟨⟨Text.trim text', test⟩, parse_eq_ok_iff.mpr ⟨hspells'.readTest hasks, rfl⟩, rfl⟩

theorem grammar_exact_of_blanks_between :
    ∃ phrase, Spells " count  <=  -5 ".toList phrase ∧ Spells "count<=-5".toList phrase ∧
      phrase.Asks (.compare "count" .le (.int (-5))) ∧
      ∃ e e', parse " count  <=  -5 " = .ok e ∧ e.source = "count  <=  -5" ∧
        parse "count<=-5" = .ok e' ∧ e'.test = e.test := by
  have hname : Name ['c', 'o', 'u', 'n', 't'] := name_iff.mpr rfl
  have hwhole : Decimal.Whole ['-', '5'] (-5) := Decimal.readInt?_eq_some_iff.mp rfl
  have hrange : IsInt64 (-5) := by decide
  have hliteral := StandsAsLiteral.of_whole hwhole hrange
  have hnone : Text.AllBlank [] := by decide
  have hone : Text.AllBlank [' '] := by decide
  have htwo : Text.AllBlank [' ', ' '] := by decide
  have hspaced := Spells.comparison .le hone hname htwo htwo hliteral hone
  have hdense := Spells.comparison .le hnone hname hnone hnone hliteral hnone
  obtain ⟨-, e, he, hsource, -, hother⟩ := (grammar_exact " count  <=  -5 ").2 _ hspaced
  obtain ⟨e', he', htest⟩ := hother "count<=-5" hdense
  exact ⟨_, hspaced, hdense, .comparison (.whole hwhole hrange), e, e', he, hsource.trans rfl, he', htest⟩

end ValvePipeline.Expression
