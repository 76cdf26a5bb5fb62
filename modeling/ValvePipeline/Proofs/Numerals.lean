import ValvePipeline.Binary64.Decimal
import ValvePipeline.Proofs.Trimming

/-!
How numerals are written. A relation says which texts spell a whole number or a decimal, part by part, and
the readers of numerals accept these texts and no others.
-/

set_option autoImplicit false
set_option relaxedAutoImplicit false

namespace ValvePipeline.Decimal

inductive Sign : List Char → Bool → Prop
  | absent : Sign [] false
  | plus : Sign ['+'] false
  | minus : Sign ['-'] true

def AreDigits (ds : List Char) : Prop :=
  ∀ d ∈ ds, d.isDigit = true

inductive Whole : List Char → Int → Prop
  | intro {sign ds : List Char} {negative : Bool} : Sign sign negative → ds ≠ [] → AreDigits ds →
    Whole (sign ++ ds) (if negative then -(ofDigits ds : Int) else ofDigits ds)

inductive Fraction : List Char → List Char → Prop
  | absent : Fraction [] []
  | present {ds : List Char} : AreDigits ds → Fraction ('.' :: ds) ds

inductive Power : List Char → Int → Prop
  | absent : Power [] 0
  | present {mark : Char} {cs : List Char} {i : Int} : mark = 'e' ∨ mark = 'E' → Whole cs i →
    Power (mark :: cs) i

/-- The text spells a decimal: a sign, digits around at most one point, at least one of them, and a power of
ten. -/
inductive Spells : List Char → Decimal → Prop
  | intro {sign whole point fraction power : List Char} {negative : Bool} {exponent : Int} :
    Sign sign negative → AreDigits whole → Fraction point fraction → whole ++ fraction ≠ [] →
    Power power exponent →
    Spells (sign ++ (whole ++ (point ++ power)))
      ⟨negative, ofDigits (whole ++ fraction), exponent - fraction.length⟩

variable {cs rest sign ds : List Char} {negative : Bool} {i : Int}

theorem exists_sign (cs : List Char) :
    ∃ sign, cs = sign ++ (readSign cs).2 ∧ Sign sign (readSign cs).1 := by
  unfold readSign
  split
  · exact ⟨['-'], rfl, .minus⟩
  · exact ⟨['+'], rfl, .plus⟩
  · exact ⟨[], rfl, .absent⟩

theorem Sign.readSign (h : Sign sign negative) (hrest : Text.Stops (fun c => c == '+' || c == '-') rest) :
    readSign (sign ++ rest) = (negative, rest) := by
  cases h with
  | plus => rfl
  | minus => rfl
  | absent =>
    cases rest with
    | nil => rfl
    | cons c rest =>
      have hc := hrest c rfl
      simp only [Bool.or_eq_false_iff, beq_eq_false_iff_ne] at hc
      simp [Decimal.readSign, hc.1, hc.2]

theorem not_sign_of_isDigit {c : Char} (h : c.isDigit = true) : (c == '+' || c == '-') = false := by
  rw [Bool.or_eq_false_iff, beq_eq_false_iff_ne, beq_eq_false_iff_ne]
  constructor <;> rintro rfl <;> cases h

theorem AreDigits.stops_sign (h : AreDigits ds) (hrest : Text.Stops (fun c => c == '+' || c == '-') rest) :
    Text.Stops (fun c => c == '+' || c == '-') (ds ++ rest) := by
  cases ds with
  | nil => exact hrest
  | cons d ds => exact Text.stops_cons (not_sign_of_isDigit (h d List.mem_cons_self)) _

def Starts (c : Char) : Prop :=
  c.isDigit = true ∨ c = '+' ∨ c = '-' ∨ c = '.'

instance : DecidablePred Starts :=
  fun c => inferInstanceAs (Decidable (c.isDigit = true ∨ c = '+' ∨ c = '-' ∨ c = '.'))

theorem Starts.ne {c d : Char} (h : Starts c) (hd : ¬Starts d) : c ≠ d := by
  rintro rfl
  exact hd h

theorem Sign.starts (h : Sign sign negative) : ∀ c ∈ sign, Starts c := by
  cases h with
  | absent => nofun
  | plus => simp [Starts]
  | minus => simp [Starts]

theorem Whole.starts (h : Whole cs i) : ∀ c ∈ cs, Starts c := by
  obtain ⟨hsign, -, hdigits⟩ := h
  intro c hc
  rcases List.mem_append.mp hc with hc | hc
  · exact hsign.starts c hc
  · exact .inl (hdigits c hc)

theorem Whole.ne_nil (h : Whole cs i) : cs ≠ [] := by
  obtain ⟨-, hne, -⟩ := h
  simp [hne]

theorem Whole.exists_start (h : Whole cs i) : ∃ c rest, cs = c :: rest ∧ Starts c := by
  obtain ⟨c, rest, rfl⟩ := List.exists_cons_of_ne_nil h.ne_nil
  exact ⟨c, rest, rfl, h.starts c List.mem_cons_self⟩

theorem readInt?_eq_some_iff : readInt? cs = some i ↔ Whole cs i := by
  constructor
  · intro h
    obtain ⟨sign, hcs, hsign⟩ := exists_sign cs
    unfold readInt? at h
    split at h
    · cases h
    next negative ds hne hread =>
      rw [hread] at hcs hsign
      split at h
      next hdigits =>
        cases h
        rw [hcs]
        exact .intro hsign hne (List.all_eq_true.mp hdigits)
      · cases h
  · rintro ⟨hsign, hne, hdigits⟩
    have hread := hsign.readSign (hdigits.stops_sign (Text.stops_nil _))
    rw [List.append_nil] at hread
    unfold readInt?
    rw [hread]
    split
    next heq => exact absurd (Prod.mk.inj heq).2 hne
    next heq =>
      cases heq
      rw [if_pos (List.all_eq_true.mpr hdigits)]

theorem readExponent?_cons {c : Char} (h : c = 'e' ∨ c = 'E') (cs : List Char) :
    readExponent? (c :: cs) = readInt? cs := by
  rcases h with rfl | rfl <;> rfl

theorem readExponent?_eq_some_iff : readExponent? cs = some i ↔ Power cs i := by
  constructor
  · intro h
    cases cs with
    | nil =>
      cases h
      exact .absent
    | cons c cs =>
      by_cases hmark : c = 'e' ∨ c = 'E'
      · rw [readExponent?_cons hmark] at h
        exact .present hmark (readInt?_eq_some_iff.mp h)
      · simp only [readExponent?, Bool.or_eq_true, decide_eq_true_eq, hmark, if_false] at h
        cases h
  · intro h
    cases h with
    | absent => rfl
    | present hmark hwhole =>
      rw [readExponent?_cons hmark]
      exact readInt?_eq_some_iff.mpr hwhole

theorem Power.stops {p : Char → Bool} (h : Power cs i) (hlower : p 'e' = false)
    (hupper : p 'E' = false) : Text.Stops p cs := by
  cases h with
  | absent => exact Text.stops_nil p
  | present hmark _ =>
    rcases hmark with rfl | rfl
    · exact Text.stops_cons hlower _
    · exact Text.stops_cons hupper _

theorem Fraction.stops {p : Char → Bool} {point fraction : List Char} (h : Fraction point fraction)
    (hpoint : p '.' = false) (hrest : Text.Stops p rest) : Text.Stops p (point ++ rest) := by
  cases h with
  | absent => exact hrest
  | present _ => exact Text.stops_cons hpoint _

def splitFraction (cs : List Char) : List Char × List Char :=
  match cs with
  | '.' :: rest => (rest.takeWhile Char.isDigit, rest.dropWhile Char.isDigit)
  | rest => ([], rest)

theorem exists_fraction (cs : List Char) :
    ∃ point, cs = point ++ (splitFraction cs).2 ∧ Fraction point (splitFraction cs).1 := by
  unfold splitFraction
  split
  next rest =>
    refine ⟨'.' :: rest.takeWhile Char.isDigit, ?_, .present fun _ => Text.mem_takeWhile⟩
    rw [List.cons_append, List.takeWhile_append_dropWhile]
  · exact ⟨[], rfl, .absent⟩

theorem Fraction.split {point fraction power : List Char} (h : Fraction point fraction)
    (hpower : Power power i) : splitFraction (point ++ power) = (fraction, power) := by
  cases h with
  | absent =>
    cases hpower with
    | absent => rfl
    | present hmark _ => rcases hmark with rfl | rfl <;> rfl
  | present hdigits =>
    rw [List.cons_append, splitFraction, Text.takeWhile_of_stops hdigits (hpower.stops rfl rfl),
      Text.dropWhile_of_stops hdigits (hpower.stops rfl rfl)]

theorem read?_eq (cs : List Char) : read? cs =
    let unsigned := (readSign cs).2
    let whole := unsigned.takeWhile Char.isDigit
    let split := splitFraction (unsigned.dropWhile Char.isDigit)
    if whole.isEmpty && split.1.isEmpty then none
    else
      (readExponent? split.2).map fun exponent =>
        ⟨(readSign cs).1, ofDigits (whole ++ split.1), exponent - split.1.length⟩ := rfl

theorem Spells.exists_start {d : Decimal} (h : Spells cs d) : ∃ c rest, cs = c :: rest ∧ Starts c := by
  cases h with
  | @intro sign whole point fraction power negative exponent hsign hwhole hfraction hne hpower =>
    cases sign with
    | cons c sign => exact ⟨c, _, rfl, hsign.starts c List.mem_cons_self⟩
    | nil =>
      cases whole with
      | cons c whole => exact ⟨c, _, rfl, .inl (hwhole c List.mem_cons_self)⟩
      | nil =>
        cases hfraction with
        | absent => exact absurd rfl hne
        | present _ => exact ⟨'.', _, rfl, .inr (.inr (.inr rfl))⟩

theorem Spells.of_read? {d : Decimal} (h : read? cs = some d) : Spells cs d := by
  obtain ⟨sign, hcs, hsign⟩ := exists_sign cs
  obtain ⟨point, hrest, hfraction⟩ := exists_fraction ((readSign cs).2.dropWhile Char.isDigit)
  rw [read?_eq] at h
  dsimp only at h
  split at h
  · cases h
  next hne =>
    obtain ⟨exponent, hexponent, rfl⟩ := Option.map_eq_some_iff.mp h
    have hwhole : AreDigits ((readSign cs).2.takeWhile Char.isDigit) := fun _ => Text.mem_takeWhile
    have hspells := Spells.intro hsign hwhole hfraction
      (by simpa [List.append_eq_nil_iff] using hne) (readExponent?_eq_some_iff.mp hexponent)
    rw [← hrest, List.takeWhile_append_dropWhile, ← hcs] at hspells
    exact hspells

theorem Spells.read? {d : Decimal} (h : Spells cs d) : read? cs = some d := by
  cases h with
  | @intro sign whole point fraction power negative exponent hsign hwhole hfraction hne hpower =>
    have hread : readSign (sign ++ (whole ++ (point ++ power))) =
        (negative, whole ++ (point ++ power)) :=
      hsign.readSign (hwhole.stops_sign (hfraction.stops rfl (hpower.stops rfl rfl)))
    have hstops : Text.Stops Char.isDigit (point ++ power) :=
      hfraction.stops rfl (hpower.stops rfl rfl)
    rw [read?_eq, hread]
    dsimp only
    rw [Text.takeWhile_of_stops hwhole hstops, Text.dropWhile_of_stops hwhole hstops,
      hfraction.split hpower, if_neg (by simpa [List.append_eq_nil_iff] using hne),
      readExponent?_eq_some_iff.mpr hpower]
    rfl

theorem read?_eq_some_iff {d : Decimal} : read? cs = some d ↔ Spells cs d :=
  ⟨.of_read?, Spells.read?⟩

end ValvePipeline.Decimal
