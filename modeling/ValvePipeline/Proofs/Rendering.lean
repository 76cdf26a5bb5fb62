import Mathlib.Data.List.Basic
import ValvePipeline.Template

/-!
Rendered templates. A template splits in exactly one way into literal text and holes, and a rendered one is
what these show, one after the other. So what fills a hole is not read again, and only attributes that a hole
names matter.
-/

set_option autoImplicit false
set_option relaxedAutoImplicit false

namespace ValvePipeline.Template

inductive Piece where
  | text (cs : List Char)
  /-- A name in braces. -/
  | hole (key : List Char)

/-- The text splits into these pieces. A hole goes from the first opening brace to the first closing one after
it; an opening brace that is never closed is literal text, with all that follows. -/
inductive Splits : List Char → List Piece → Prop
  | text {cs : List Char} : '\x7b' ∉ cs → Splits cs [.text cs]
  | unclosed {cs rest : List Char} : '\x7b' ∉ cs → '\x7d' ∉ rest →
    Splits (cs ++ '\x7b' :: rest) [.text (cs ++ '\x7b' :: rest)]
  | hole {cs key rest : List Char} {pieces : List Piece} : '\x7b' ∉ cs → '\x7d' ∉ key →
    Splits rest pieces →
    Splits (cs ++ '\x7b' :: (key ++ '\x7d' :: rest)) (.text cs :: .hole key :: pieces)

/-- What a piece shows. A hole shows a text as it is, any other value in its compact form, and itself when its
name is not set. -/
inductive Shows (attributes : Attributes) : Piece → List Char → Prop
  | text {cs : List Char} : Shows attributes (.text cs) cs
  | string {key : List Char} {s : String} :
    attributes.get? (String.ofList key) = some (.string s) → Shows attributes (.hole key) s.toList
  | value {key : List Char} {value : Json} : attributes.get? (String.ofList key) = some value →
    (∀ s, value ≠ .string s) → Shows attributes (.hole key) value.print
  | missing {key : List Char} : attributes.get? (String.ofList key) = none →
    Shows attributes (.hole key) ('\x7b' :: (key ++ ['\x7d']))

inductive Shown (attributes : Attributes) : List Piece → List Char → Prop
  | nil : Shown attributes [] []
  | cons {piece : Piece} {pieces : List Piece} {cs rest : List Char} : Shows attributes piece cs →
    Shown attributes pieces rest → Shown attributes (piece :: pieces) (cs ++ rest)

variable {attributes attributes' : Attributes} {cs key rest : List Char} {piece : Piece}
  {pieces : List Piece}

theorem eq_of_first {a : Char} {before before' after after' : List Char} (hbefore : a ∉ before)
    (hbefore' : a ∉ before') (h : before' ++ a :: after' = before ++ a :: after) :
    before' = before ∧ after' = after := by
  induction before generalizing before' with
  | nil =>
    cases before' with
    | nil => exact ⟨rfl, (List.cons.inj h).2⟩
    | cons b before' => exact absurd (.head before') ((List.cons.inj h).1 ▸ hbefore')
  | cons b before ih =>
    cases before' with
    | nil => exact absurd (.head before) ((List.cons.inj h).1 ▸ hbefore)
    | cons b' before' =>
      obtain ⟨rfl, hrest⟩ := List.cons.inj h
      obtain ⟨rfl, rfl⟩ := ih (fun hmem => hbefore (.tail b' hmem))
        (fun hmem => hbefore' (.tail b' hmem)) hrest
      exact ⟨rfl, rfl⟩

theorem exists_splits (cs : List Char) : ∃ pieces, Splits cs pieces := by
  induction hn : cs.length using Nat.strongRecOn generalizing cs with
  | ind n ih =>
    by_cases hopen : '\x7b' ∈ cs
    · obtain ⟨before, after, rfl, hbefore⟩ := List.eq_append_cons_of_mem hopen
      by_cases hclose : '\x7d' ∈ after
      · obtain ⟨key, rest, rfl, hkey⟩ := List.eq_append_cons_of_mem hclose
        simp only [List.length_append, List.length_cons] at hn
        obtain ⟨pieces, hpieces⟩ := ih rest.length (by omega) rest rfl
        exact ⟨_, .hole hbefore hkey hpieces⟩
      · exact ⟨_, .unclosed hbefore hclose⟩
    · exact ⟨_, .text hopen⟩

theorem Splits.unique {other : List Piece} (h : Splits cs pieces) (hother : Splits cs other) :
    other = pieces := by
  have mem_after {a : Char} (before after : List Char) : a ∈ before ++ a :: after :=
    List.mem_append_right before List.mem_cons_self
  generalize hcs : cs = cs' at hother
  induction h generalizing cs' other with
  | text hopen =>
    cases hother with
    | text => rw [hcs]
    | unclosed => exact absurd (hcs ▸ mem_after _ _) hopen
    | hole => exact absurd (hcs ▸ mem_after _ _) hopen
  | unclosed hbefore hclose =>
    cases hother with
    | text hopen => exact absurd (hcs ▸ mem_after _ _) hopen
    | unclosed => rw [hcs]
    | hole hbefore' =>
      obtain ⟨-, rfl⟩ := eq_of_first hbefore' hbefore hcs
      exact absurd (mem_after _ _) hclose
  | hole hbefore hkey _ ih =>
    cases hother with
    | text hopen => exact absurd (hcs ▸ mem_after _ _) hopen
    | unclosed hbefore' hclose =>
      obtain ⟨-, rfl⟩ := eq_of_first hbefore' hbefore hcs
      exact absurd (mem_after _ _) hclose
    | hole hbefore' hkey' hrest =>
      obtain ⟨rfl, hafter⟩ := eq_of_first hbefore' hbefore hcs
      obtain ⟨rfl, rfl⟩ := eq_of_first hkey' hkey hafter
      rw [ih _ rfl hrest]

def Piece.render (attributes : Attributes) : Piece → List Char
  | .text cs => cs
  | .hole key => fill attributes key

theorem shows_iff : Shows attributes piece cs ↔ cs = piece.render attributes := by
  cases piece with
  | text text =>
    constructor
    · rintro ⟨⟩
      rfl
    · rintro rfl
      exact .text
  | hole key =>
    rw [Piece.render, fill]
    constructor
    · rintro (_ | hvalue | ⟨hvalue, htext⟩ | hnone)
      · rw [hvalue]
      · rename_i value
        rw [hvalue]
        cases value with
        | string s => exact absurd rfl (htext s)
        | _ => rfl
      · rw [hnone]
    · rintro rfl
      split
      next s hvalue => exact .string hvalue
      next value hother hvalue => exact .value hvalue hother
      next hnone => exact .missing hnone

theorem shown_iff : Shown attributes pieces cs ↔ cs = pieces.flatMap (Piece.render attributes) := by
  constructor
  · intro h
    induction h with
    | nil => rfl
    | cons hpiece _ ih => rw [List.flatMap_cons, ← shows_iff.mp hpiece, ← ih]
  · rintro rfl
    induction pieces with
    | nil => exact .nil
    | cons piece pieces ih => exact .cons (shows_iff.mpr rfl) ih

theorem renderFrom_append (h : '\x7b' ∉ cs) (rest : List Char) :
    renderFrom attributes none (cs ++ rest) = cs ++ renderFrom attributes none rest := by
  induction cs with
  | nil => rfl
  | cons c cs ih =>
    rw [List.mem_cons, not_or] at h
    rw [List.cons_append, renderFrom, if_neg (Ne.symm h.1), ih h.2, List.cons_append]

theorem renderFrom_open (rest : List Char) :
    renderFrom attributes none ('\x7b' :: rest) = renderFrom attributes (some []) rest := by
  rw [renderFrom, if_pos rfl]

theorem renderFrom_closed (h : '\x7d' ∉ key) (read rest : List Char) :
    renderFrom attributes (some read) (key ++ '\x7d' :: rest) =
      fill attributes (read.reverse ++ key) ++ renderFrom attributes none rest := by
  induction key generalizing read with
  | nil => rw [List.nil_append, renderFrom, if_pos rfl, List.append_nil]
  | cons c key ih =>
    rw [List.mem_cons, not_or] at h
    rw [List.cons_append, renderFrom, if_neg (Ne.symm h.1), ih h.2, List.reverse_cons,
      List.append_assoc, List.singleton_append]

/-- A brace that is never closed stays, with all that follows. -/
theorem renderFrom_unclosed (h : '\x7d' ∉ rest) (read : List Char) :
    renderFrom attributes (some read) rest = '\x7b' :: (read.reverse ++ rest) := by
  induction rest generalizing read with
  | nil => rw [renderFrom, List.append_nil]
  | cons c rest ih =>
    rw [List.mem_cons, not_or] at h
    rw [renderFrom, if_neg (Ne.symm h.1), ih h.2, List.reverse_cons, List.append_assoc,
      List.singleton_append]

theorem Splits.renderFrom (h : Splits cs pieces) :
    renderFrom attributes none cs = pieces.flatMap (Piece.render attributes) := by
  induction h with
  | @text cs hopen =>
    have hrender : Template.renderFrom attributes none (cs ++ []) = cs ++ [] :=
      renderFrom_append hopen []
    simpa [Piece.render] using hrender
  | unclosed hbefore hclose =>
    rw [renderFrom_append hbefore, renderFrom_open, renderFrom_unclosed hclose]
    simp [Piece.render]
  | hole hbefore hkey _ ih =>
    rw [renderFrom_append hbefore, renderFrom_open, renderFrom_closed hkey, ih]
    simp [Piece.render]

def Piece.written : Piece → List Char
  | .text cs => cs
  | .hole key => '\x7b' :: (key ++ ['\x7d'])

theorem Splits.written (h : Splits cs pieces) : pieces.flatMap Piece.written = cs := by
  induction h with
  | text => simp [Piece.written]
  | unclosed => simp [Piece.written]
  | hole _ _ _ ih => simp [Piece.written, ih]

theorem Piece.render_congr (h : ∀ key, piece = .hole key →
    attributes'.get? (String.ofList key) = attributes.get? (String.ofList key)) :
    piece.render attributes' = piece.render attributes := by
  cases piece with
  | text cs => rfl
  | hole key => rw [Piece.render, Piece.render, fill, fill, h key rfl]

theorem Piece.render_of_missing
    (h : ∀ key, piece = .hole key → attributes.get? (String.ofList key) = none) :
    piece.render attributes = piece.written := by
  cases piece with
  | text cs => rfl
  | hole key => rw [Piece.render, fill, h key rfl, Piece.written]

theorem Splits.toList_render {message : String} (h : Splits message.toList pieces)
    (attributes : Attributes) :
    (render message attributes).toList = pieces.flatMap (Piece.render attributes) := by
  rw [render, String.toList_ofList, h.renderFrom]

/-- A template splits in one way, and it is rendered as what its pieces show. Attributes of which no hole has
the name do not matter, and where all these names are missing the template stays as it is. -/
theorem render_substitutes (message : String) :
    ∃ pieces, Splits message.toList pieces ∧
      (∀ other, Splits message.toList other → other = pieces) ∧
      (∀ attributes cs, Shown attributes pieces cs ↔ (render message attributes).toList = cs) ∧
      (∀ attributes attributes' : Attributes,
        (∀ key, .hole key ∈ pieces →
          attributes'.get? (String.ofList key) = attributes.get? (String.ofList key)) →
        render message attributes' = render message attributes) ∧
      ∀ attributes : Attributes,
        (∀ key, .hole key ∈ pieces → attributes.get? (String.ofList key) = none) →
        render message attributes = message := by
  obtain ⟨pieces, hpieces⟩ := exists_splits message.toList
  have rendered := hpieces.toList_render
  refine ⟨pieces, hpieces, fun _ hother => hpieces.unique hother, ?_, ?_, ?_⟩
  · intro attributes cs
    rw [shown_iff, rendered]
    exact eq_comm
  · intro attributes attributes' hagree
    rw [← String.toList_inj, rendered, rendered]
    refine List.flatMap_congr fun piece hmem => Piece.render_congr fun key hkey => ?_
    exact hagree key (hkey ▸ hmem)
  · intro attributes hmissing
    rw [← String.toList_inj, rendered, ← hpieces.written]
    refine List.flatMap_congr fun piece hmem => Piece.render_of_missing fun key hkey => ?_
    exact hmissing key (hkey ▸ hmem)

private theorem braces_split : Splits "\x7ba\x7d: \x7b\x7bb\x7d\x7b.".toList
    [.text [], .hole ['a'], .text [':', ' '], .hole ['\x7b', 'b'], .text ['\x7b', '.']] :=
  @Splits.hole [] ['a'] _ _ (by decide) (by decide)
    (@Splits.hole [':', ' '] ['\x7b', 'b'] _ _ (by decide) (by decide)
      (@Splits.unclosed [] ['.'] (by decide) (by decide)))

theorem render_substitutes_of_braces :
    render "\x7ba\x7d: \x7b\x7bb\x7d\x7b." ⟨[("a", .string "\x7bb\x7d"), ("\x7bb", .int 5)]⟩ =
      "\x7bb\x7d: 5\x7b." ∧
    render "\x7ba\x7d: \x7b\x7bb\x7d\x7b." ⟨[("b", .null)]⟩ = "\x7ba\x7d: \x7b\x7bb\x7d\x7b." := by
  obtain ⟨pieces, -, hunique, hshown, -, hmissing⟩ :=
    render_substitutes "\x7ba\x7d: \x7b\x7bb\x7d\x7b."
  obtain rfl := hunique _ braces_split
  constructor
  · have filled : Shown ⟨[("a", .string "\x7bb\x7d"), ("\x7bb", .int 5)]⟩
        [.text [], .hole ['a'], .text [':', ' '], .hole ['\x7b', 'b'], .text ['\x7b', '.']]
        ([] ++ ("\x7bb\x7d".toList ++ ([':', ' '] ++ ((Json.int 5).print ++ (['\x7b', '.'] ++ []))))) :=
      .cons .text (.cons (.string rfl) (.cons .text (.cons (.value rfl nofun) (.cons .text .nil))))
    rw [← String.toList_inj, (hshown _ _).mp filled]
    rfl
  · refine hmissing _ fun key hkey => ?_
    simp only [List.mem_cons, Piece.hole.injEq, reduceCtorEq, false_or, List.not_mem_nil,
      or_false] at hkey
    rcases hkey with rfl | rfl <;> rfl

end ValvePipeline.Template
