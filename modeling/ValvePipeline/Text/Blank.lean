/-!
Blank characters and trimming. A character is blank when it has the Unicode property White_Space;
a trimmed text neither starts nor ends with a blank.
-/

set_option autoImplicit false
set_option relaxedAutoImplicit false

namespace ValvePipeline.Text

/-- The twenty-five characters of the Unicode property White_Space. -/
def isBlank (c : Char) : Bool :=
  let n := c.toNat
  (0x09 ≤ n && n ≤ 0x0D) || n == 0x20 || n == 0x85 || n == 0xA0 || n == 0x1680 ||
    (0x2000 ≤ n && n ≤ 0x200A) || n == 0x2028 || n == 0x2029 || n == 0x202F || n == 0x205F ||
    n == 0x3000

def trimFront (cs : List Char) : List Char :=
  cs.dropWhile isBlank

def trimBack : List Char → List Char
  | [] => []
  | c :: cs =>
    match trimBack cs with
    | [] => if isBlank c then [] else [c]
    | kept => c :: kept

def trimmed (cs : List Char) : List Char :=
  trimBack (trimFront cs)

def trim (s : String) : String :=
  String.ofList (trimmed s.toList)

theorem trimBack_eq_nil_iff {cs : List Char} : trimBack cs = [] ↔ ∀ c ∈ cs, isBlank c = true := by
  induction cs with
  | nil => simp [trimBack]
  | cons c cs ih =>
    unfold trimBack
    split
    · next h => by_cases hc : isBlank c = true <;> simp_all
    · next h => simp_all

theorem trimBack_append_blank (cs : List Char) :
    ∃ blank, cs = trimBack cs ++ blank ∧ ∀ c ∈ blank, isBlank c = true := by
  induction cs with
  | nil => exact ⟨[], rfl, by simp⟩
  | cons c cs ih =>
    obtain ⟨blank, hcs, hblank⟩ := ih
    unfold trimBack
    split
    · next h =>
      by_cases hc : isBlank c = true
      · refine ⟨c :: cs, by simp [hc], ?_⟩
        simpa [hc] using trimBack_eq_nil_iff.1 h
      · refine ⟨cs, by simp [hc], trimBack_eq_nil_iff.1 h⟩
    · next kept h => exact ⟨blank, by simpa using hcs, hblank⟩

theorem trimBack_concat {c : Char} (hc : isBlank c = false) (cs : List Char) :
    trimBack (cs ++ [c]) = cs ++ [c] := by
  induction cs with
  | nil => simp [trimBack, hc]
  | cons d cs ih =>
    rw [List.cons_append, trimBack, ih]
    cases cs <;> rfl

theorem trimFront_of_head {c : Char} (hc : isBlank c = false) (cs : List Char) :
    trimFront (c :: cs) = c :: cs := by
  simp [trimFront, hc]

theorem trimFront_eq_nil_or (cs : List Char) :
    trimFront cs = [] ∨ ∃ c rest, trimFront cs = c :: rest ∧ isBlank c = false := by
  induction cs with
  | nil => exact .inl rfl
  | cons c cs ih =>
    by_cases hc : isBlank c = true
    · simpa [trimFront, List.dropWhile_cons, hc] using ih
    · have hc : isBlank c = false := by simpa using hc
      exact .inr ⟨c, cs, trimFront_of_head hc cs, hc⟩

theorem trimBack_of_head {c : Char} (hc : isBlank c = false) (cs : List Char) :
    ∃ rest, trimBack (c :: cs) = c :: rest := by
  unfold trimBack
  split
  · exact ⟨[], by simp [hc]⟩
  · exact ⟨_, rfl⟩

theorem trimBack_trimBack (cs : List Char) : trimBack (trimBack cs) = trimBack cs := by
  induction cs with
  | nil => rfl
  | cons c cs ih =>
    cases hkept : trimBack cs with
    | nil =>
      have hlast : trimBack (c :: cs) = if isBlank c then [] else [c] := by
        rw [trimBack, hkept]
      rw [hlast]
      by_cases hc : isBlank c = true <;> simp [hc, trimBack]
    | cons d kept =>
      have hkeep : trimBack (c :: cs) = c :: d :: kept := by
        rw [trimBack, hkept]
      rw [hkept] at ih
      rw [hkeep, trimBack, ih]

theorem trimmed_trimmed (cs : List Char) : trimmed (trimmed cs) = trimmed cs := by
  unfold trimmed
  rcases trimFront_eq_nil_or cs with h | ⟨c, rest, h, hc⟩
  · rw [h]
    rfl
  · obtain ⟨kept, hk⟩ := trimBack_of_head hc rest
    rw [h, hk, trimFront_of_head hc, ← hk, trimBack_trimBack]

theorem trim_trim (s : String) : trim (trim s) = trim s := by
  simp [trim, trimmed_trimmed]

end ValvePipeline.Text
