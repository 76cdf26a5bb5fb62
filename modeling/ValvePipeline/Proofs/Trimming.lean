import ValvePipeline.Text.Blank

/-!
Runs of characters and blanks around a text. A run of a class of characters is found again in front of a text
that stops the class; trimming finds a text without blanks at its ends again, whatever blanks are put around
it.
-/

set_option autoImplicit false
set_option relaxedAutoImplicit false

namespace ValvePipeline.Text

/-- The text is empty or begins outside of a class of characters, so that a run of the class ends before
it. -/
def Stops (p : Char → Bool) (cs : List Char) : Prop :=
  ∀ c ∈ cs.head?, p c = false

def AllBlank (cs : List Char) : Prop :=
  ∀ c ∈ cs, isBlank c = true

instance : DecidablePred AllBlank := fun cs =>
  List.decidableBAll (fun c => isBlank c = true) cs

structure Tight (cs : List Char) : Prop where
  first : ∀ c ∈ cs.head?, isBlank c = false
  last : ∀ c ∈ cs.getLast?, isBlank c = false

variable {p : Char → Bool} {run rest cs before after : List Char}

theorem stops_nil (p : Char → Bool) : Stops p [] :=
  nofun

theorem stops_cons {c : Char} (h : p c = false) (cs : List Char) : Stops p (c :: cs) := by
  rintro _ ⟨⟩
  exact h

theorem stops_dropWhile (p : Char → Bool) (cs : List Char) : Stops p (cs.dropWhile p) := by
  intro c hc
  have h := List.head?_dropWhile_not p cs
  rw [Option.mem_def.mp hc] at h
  exact h

theorem Stops.eq_nil (h : Stops p cs) (hall : ∀ c ∈ cs, p c = true) : cs = [] := by
  cases cs with
  | nil => rfl
  | cons c cs =>
    have hc := hall c List.mem_cons_self
    rw [h c rfl] at hc
    cases hc

theorem Stops.append (h : Stops p cs) (hne : cs ≠ []) (rest : List Char) : Stops p (cs ++ rest) := by
  obtain ⟨c, cs, rfl⟩ := List.exists_cons_of_ne_nil hne
  exact stops_cons (h c rfl) _

theorem takeWhile_of_stops (hrun : ∀ c ∈ run, p c = true) (hrest : Stops p rest) :
    (run ++ rest).takeWhile p = run := by
  rw [List.takeWhile_append_of_pos hrun]
  cases rest with
  | nil => exact List.append_nil run
  | cons c rest => rw [List.takeWhile_cons_of_neg (by simp [hrest c rfl]), List.append_nil]

theorem dropWhile_of_stops (hrun : ∀ c ∈ run, p c = true) (hrest : Stops p rest) :
    (run ++ rest).dropWhile p = rest := by
  rw [List.dropWhile_append_of_pos hrun]
  cases rest with
  | nil => rfl
  | cons c rest => exact List.dropWhile_cons_of_neg (by simp [hrest c rfl])

theorem eq_of_stops {run' rest' : List Char} (hrun : ∀ c ∈ run, p c = true) (hrest : Stops p rest)
    (hrun' : ∀ c ∈ run', p c = true) (hrest' : Stops p rest') (h : run ++ rest = run' ++ rest') :
    run = run' ∧ rest = rest' := by
  constructor
  · rw [← takeWhile_of_stops hrun hrest, h, takeWhile_of_stops hrun' hrest']
  · rw [← dropWhile_of_stops hrun hrest, h, dropWhile_of_stops hrun' hrest']

theorem mem_takeWhile {c : Char} (h : c ∈ cs.takeWhile p) : p c = true :=
  List.all_eq_true.mp List.all_takeWhile c h

theorem AllBlank.append (hbefore : AllBlank before) (hafter : AllBlank after) :
    AllBlank (before ++ after) := by
  intro c hc
  rcases List.mem_append.mp hc with hc | hc
  · exact hbefore c hc
  · exact hafter c hc

theorem AllBlank.stops (h : AllBlank cs) (hp : ∀ c, p c = true → isBlank c = false) (hrest : Stops p rest) :
    Stops p (cs ++ rest) := by
  cases cs with
  | nil => exact hrest
  | cons c cs =>
    refine stops_cons ?_ _
    cases hc : p c with
    | false => rfl
    | true =>
      have hblank := h c List.mem_cons_self
      rw [hp c hc] at hblank
      cases hblank

theorem trimFront_of_stops (hblank : AllBlank before) (hrest : Stops isBlank rest) :
    trimFront (before ++ rest) = rest :=
  dropWhile_of_stops hblank hrest

theorem Stops.trimFront (h : Stops isBlank cs) : trimFront cs = cs :=
  trimFront_of_stops (List.forall_mem_nil _) h

theorem exists_front (cs : List Char) : ∃ blank, cs = blank ++ trimFront cs ∧ AllBlank blank :=
  ⟨cs.takeWhile isBlank, List.takeWhile_append_dropWhile.symm, fun _ => mem_takeWhile⟩

theorem trimBack_append_of_blank (hblank : AllBlank after) (cs : List Char) :
    trimBack (cs ++ after) = trimBack cs := by
  induction cs with
  | nil => exact trimBack_eq_nil_iff.mpr hblank
  | cons c cs ih => rw [List.cons_append, trimBack, ih, trimBack]

theorem Tight.trimBack (h : Tight cs) : trimBack cs = cs := by
  rcases List.eq_nil_or_concat cs with rfl | ⟨kept, c, rfl⟩
  · rfl
  · rw [List.concat_eq_append]
    exact trimBack_concat (h.last c (by simp)) kept

/-- Trimming finds a text without blanks at its ends again, whatever blanks are put around it. -/
theorem Tight.trimmed (h : Tight cs) (hbefore : AllBlank before) (hafter : AllBlank after) :
    trimmed (before ++ (cs ++ after)) = cs := by
  cases cs with
  | nil =>
    have hall : AllBlank (before ++ ([] ++ after)) := hbefore.append hafter
    have hnil : trimFront (before ++ ([] ++ after)) = [] :=
      (stops_dropWhile isBlank _).eq_nil fun c hc => hall c (List.dropWhile_subset _ hc)
    rw [Text.trimmed, hnil]
    rfl
  | cons c cs =>
    have hstops : Stops isBlank (c :: cs ++ after) := stops_cons (h.first c rfl) _
    rw [Text.trimmed, trimFront_of_stops hbefore hstops, trimBack_append_of_blank hafter, h.trimBack]

theorem tight_of_forall (h : ∀ c ∈ cs, isBlank c = false) : Tight cs where
  first c hc := h c (List.mem_of_mem_head? hc)
  last c hc := h c (List.mem_of_getLast? hc)

theorem last_trimBack (cs : List Char) : ∀ c ∈ (trimBack cs).getLast?, isBlank c = false := by
  induction cs with
  | nil => nofun
  | cons c cs ih =>
    unfold trimBack
    split
    · by_cases hc : isBlank c = true
      · rw [if_pos hc]
        nofun
      · rw [if_neg hc]
        rintro _ ⟨⟩
        simpa using hc
    next kept hne =>
      have hlast : (c :: trimBack cs).getLast? = (trimBack cs).getLast? := by
        rcases hcs : trimBack cs with - | ⟨d, ds⟩
        · exact absurd hcs hne
        · rw [List.getLast?_cons_cons]
      rw [hlast]
      exact ih

theorem tight_trimmed (cs : List Char) : Tight (trimmed cs) where
  first := by
    rcases trimFront_eq_nil_or cs with h | ⟨c, rest, h, hc⟩
    · rw [trimmed, h]
      nofun
    · obtain ⟨kept, hkept⟩ := trimBack_of_head hc rest
      rw [trimmed, h, hkept]
      rintro _ ⟨⟩
      exact hc
  last := last_trimBack _

theorem exists_trimmed (cs : List Char) :
    ∃ before after, cs = before ++ (trimmed cs ++ after) ∧ AllBlank before ∧ AllBlank after := by
  obtain ⟨before, hcs, hbefore⟩ := exists_front cs
  obtain ⟨after, hrest, hafter⟩ := trimBack_append_blank (trimFront cs)
  refine ⟨before, after, ?_, hbefore, hafter⟩
  rw [trimmed, ← hrest]
  exact hcs

theorem trim_eq_empty_iff (s : String) : trim s = "" ↔ AllBlank s.toList := by
  rw [trim, String.ofList_eq_empty_iff]
  constructor
  · intro h
    obtain ⟨before, after, hs, hbefore, hafter⟩ := exists_trimmed s.toList
    rw [hs, h, List.nil_append]
    exact hbefore.append hafter
  · intro h
    have tight : Tight [] := tight_of_forall (List.forall_mem_nil _)
    simpa using tight.trimmed h (List.forall_mem_nil _)

end ValvePipeline.Text
