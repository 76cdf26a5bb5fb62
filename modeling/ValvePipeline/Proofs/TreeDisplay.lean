import Mathlib.Data.List.Forall2
import ValvePipeline.Proofs.Labels
import ValvePipeline.Proofs.Trimming

/-!
The tree display of a pipeline. Its lines are read back one by one: the blanks in front of a line say how deep
it lies, and its first character whether it is the head of a scope or a valve. The depths of the lines then
put the tree together again, so that two trees whose texts hold no line break look the same only if they
are the same.
-/

set_option autoImplicit false
set_option relaxedAutoImplicit false

namespace ValvePipeline

namespace Outline

/-- What a line of the display shows. -/
inductive Item where
  | scope (label : Option String)
  | valve (index : Nat) (description : String)

namespace Item

def text : Item → String
  | .scope label => header label
  | .valve index description => toString index ++ ": " ++ description

/-- What the item shows of the tree holds no line break. -/
def OneLine : Item → Prop
  | .scope label => ∀ name ∈ label, '\n' ∉ name.toList
  | .valve _ description => '\n' ∉ description.toList

theorem toList_text_valve (index : Nat) (description : String) : (valve index description).text.toList =
    Nat.toDigits 10 index ++ ':' :: ' ' :: description.toList := by
  rw [text, String.toList_append, String.toList_append, List.append_assoc]
  exact congrArg (· ++ _) Nat.toList_repr

theorem toList_text_scope (label : Option String) : (scope label).text.toList =
    "pipeline".toList ++ label.elim [] fun name => ' ' :: '[' :: (name.toList ++ [']']) := by
  cases label with
  | none => rfl
  | some name =>
    rw [text, header, String.toList_append, String.toList_append, List.append_assoc]
    rfl

theorem isDigit_of_mem_index (index : Nat) : ∀ c ∈ Nat.toDigits 10 index, c.isDigit = true :=
  fun _ hc => Nat.isDigit_of_mem_toDigits (by decide) (by decide) hc

theorem exists_digit (index : Nat) (description : String) :
    ∃ c cs, (valve index description).text.toList = c :: cs ∧ c.isDigit = true := by
  obtain ⟨c, cs, hdigits⟩ := List.exists_cons_of_ne_nil (Nat.toDigits_ne_nil (b := 10) (n := index))
  have hdigit : c.isDigit = true := isDigit_of_mem_index index c (hdigits ▸ List.mem_cons_self)
  exact ⟨c, _, by rw [toList_text_valve, hdigits, List.cons_append], hdigit⟩

theorem text_scope_ne_valve (label : Option String) (index : Nat) (description : String) :
    (scope label).text ≠ (valve index description).text := by
  intro h
  obtain ⟨c, cs, hvalve, hdigit⟩ := exists_digit index description
  rw [← h, toList_text_scope] at hvalve
  obtain ⟨rfl, -⟩ := List.cons.inj hvalve
  exact absurd hdigit (by decide)

theorem text_inj {a b : Item} (h : a.text = b.text) : a = b := by
  cases a with
  | scope label =>
    cases b with
    | scope other =>
      have hlist := congrArg String.toList h
      rw [toList_text_scope, toList_text_scope] at hlist
      replace hlist := List.append_cancel_left hlist
      cases label <;> cases other <;> simp_all [String.toList_inj]
    | valve index description => exact absurd h (text_scope_ne_valve label index description)
  | valve index description =>
    cases b with
    | scope label => exact absurd h.symm (text_scope_ne_valve label index description)
    | valve index' description' =>
      have hlist := congrArg String.toList h
      rw [toList_text_valve, toList_text_valve] at hlist
      obtain ⟨hindex, hrest⟩ := Text.eq_of_stops (isDigit_of_mem_index index) (Text.stops_cons rfl _)
        (isDigit_of_mem_index index') (Text.stops_cons rfl _) hlist
      have hread := congrArg (Nat.ofDigitChars 10 · 0) hindex
      simp only [Nat.ofDigitChars_ten_toDigits] at hread
      rw [hread, String.toList_inj.mp (List.cons.inj (List.cons.inj hrest).2).2]

theorem newline_not_mem_text {a : Item} (h : a.OneLine) : '\n' ∉ a.text.toList := by
  cases a with
  | scope label =>
    rw [toList_text_scope]
    cases label with
    | none => decide
    | some name =>
      have hname : '\n' ∉ name.toList := h name rfl
      simp [hname]
  | valve index description =>
    have hdescription : '\n' ∉ description.toList := h
    rw [toList_text_valve]
    intro hmem
    rcases List.mem_append.mp hmem with hdigit | hmem
    · exact absurd (isDigit_of_mem_index index _ hdigit) (by decide)
    · simp [hdescription] at hmem

theorem stops_blank (a : Item) (rest : List Char) : Text.Stops (· == ' ') (a.text.toList ++ rest) := by
  cases a with
  | scope label =>
    rw [toList_text_scope]
    exact Text.stops_cons rfl _
  | valve index description =>
    obtain ⟨c, cs, htext, hdigit⟩ := exists_digit index description
    rw [htext]
    refine Text.stops_cons (p := (· == ' ')) (beq_eq_false_iff_ne.mpr ?_) _
    rintro rfl
    exact absurd hdigit (by decide)

end Item

structure Row where
  indent : Nat
  item : Item

namespace Row

def text (r : Row) : List Char :=
  (line r.indent r.item.text).toList

theorem toList_pushn (c : Char) (n : Nat) : ("".pushn c n).toList = List.replicate n c := by
  rw [String.pushn_eq_repeat_push]
  induction n with
  | zero => rfl
  | succ n ih => rw [Nat.repeat, String.toList_push, ih, List.replicate_succ']

theorem text_eq (r : Row) :
    r.text = List.replicate (2 * r.indent) ' ' ++ (r.item.text.toList ++ ['\n']) := by
  rw [text, line, String.toList_append, String.toList_append, toList_pushn, List.append_assoc]
  rfl

theorem text_append_inj {a b : Row} (ha : a.item.OneLine) (hb : b.item.OneLine) {rest rest' : List Char}
    (h : a.text ++ rest = b.text ++ rest') : a = b ∧ rest = rest' := by
  simp only [text_eq, List.append_assoc] at h
  have blank (n : Nat) : ∀ c ∈ List.replicate n ' ', (c == ' ') = true := by
    intro c hc
    rw [List.eq_of_mem_replicate hc]
    rfl
  obtain ⟨hindent, hline⟩ := Text.eq_of_stops (blank _) (a.item.stops_blank _) (blank _)
    (b.item.stops_blank _) h
  have hcount := congrArg List.length hindent
  simp only [List.length_replicate] at hcount
  have inside {item : Item} (hitem : item.OneLine) : ∀ c ∈ item.text.toList, (c != '\n') = true := by
    intro c hc
    refine bne_iff_ne.mpr ?_
    rintro rfl
    exact Item.newline_not_mem_text hitem hc
  obtain ⟨htext, hrest⟩ := Text.eq_of_stops (inside ha) (Text.stops_cons rfl _) (inside hb)
    (Text.stops_cons rfl _) hline
  have hitem := Item.text_inj (String.toList_inj.mp htext)
  obtain ⟨indent, item⟩ := a
  obtain ⟨indent', item'⟩ := b
  obtain rfl : indent = indent' := by
    dsimp only at hcount
    omega
  obtain rfl : item = item' := hitem
  exact ⟨rfl, (List.cons.inj hrest).2⟩

theorem lines_inj {as bs : List Row} (ha : ∀ r ∈ as, r.item.OneLine) (hb : ∀ r ∈ bs, r.item.OneLine)
    (h : as.flatMap text = bs.flatMap text) : as = bs := by
  have nonempty (r : Row) (rest : List Char) : r.text ++ rest ≠ [] := by
    simp [text_eq]
  induction as generalizing bs with
  | nil =>
    cases bs with
    | nil => rfl
    | cons b bs => exact absurd h.symm (nonempty b _)
  | cons a as ih =>
    cases bs with
    | nil => exact absurd h (nonempty a _)
    | cons b bs =>
      rw [List.forall_mem_cons] at ha hb
      obtain ⟨rfl, hrest⟩ := text_append_inj ha.1 hb.1 h
      rw [ih ha.2 hb.2 hrest]

end Row

mutual

/-- The lines of an outline at some indentation. -/
def rows (indent : Nat) : Outline → List Row
  | ⟨label, entries⟩ => ⟨indent, .scope label⟩ :: entryRows indent 0 entries

def entryRows (indent index : Nat) : List Entry → List Row
  | [] => []
  | ⟨description, blocks⟩ :: entries =>
    ⟨indent + 1, .valve index description⟩ ::
      (blockRows (indent + 2) blocks ++ entryRows indent (index + 1) entries)

def blockRows (indent : Nat) : List Outline → List Row
  | [] => []
  | block :: blocks => rows indent block ++ blockRows indent blocks

end

mutual

theorem toList_display (indent : Nat) : (o : Outline) →
    (o.display indent).toList = (o.rows indent).flatMap Row.text
  | ⟨label, entries⟩ => by
    rw [display, rows, String.toList_append, toList_displayEntries, List.flatMap_cons]
    rfl

theorem toList_displayEntries (indent index : Nat) : (entries : List Entry) →
    (displayEntries indent index entries).toList = (entryRows indent index entries).flatMap Row.text
  | [] => rfl
  | ⟨description, blocks⟩ :: entries => by
    rw [displayEntries, entryRows, String.toList_append, String.toList_append, toList_displayBlocks,
      toList_displayEntries, List.flatMap_cons, List.flatMap_append]
    rfl

theorem toList_displayBlocks (indent : Nat) : (blocks : List Outline) →
    (displayBlocks indent blocks).toList = (blockRows indent blocks).flatMap Row.text
  | [] => rfl
  | block :: blocks => by
    rw [displayBlocks, blockRows, String.toList_append, toList_display, toList_displayBlocks,
      List.flatMap_append]

end

def Leaves (indent : Nat) (rest : List Row) : Prop :=
  ∀ r ∈ rest.head?, r.indent < indent

theorem Leaves.mono {indent deeper : Nat} {rest : List Row} (h : Leaves indent rest)
    (hle : indent ≤ deeper) : Leaves deeper rest :=
  fun r hr => Nat.lt_of_lt_of_le (h r hr) hle

theorem leaves_cons_iff {indent depth : Nat} {item : Item} {rest : List Row} :
    Leaves indent (⟨depth, item⟩ :: rest) ↔ depth < indent := by
  simp [Leaves]

theorem Leaves.entryRows {indent : Nat} {rest : List Row} (h : Leaves (indent + 1) rest) (index : Nat)
    (entries : List Entry) : Leaves (indent + 2) (entryRows indent index entries ++ rest) := by
  cases entries with
  | nil => exact h.mono (Nat.le_succ _)
  | cons entry entries =>
    obtain ⟨description, blocks⟩ := entry
    exact leaves_cons_iff.mpr (Nat.lt_succ_self _)

theorem Leaves.blockRows {indent : Nat} {rest : List Row} (h : Leaves indent rest)
    (blocks : List Outline) : Leaves (indent + 1) (blockRows indent blocks ++ rest) := by
  cases blocks with
  | nil => exact h.mono (Nat.le_succ _)
  | cons block blocks =>
    obtain ⟨label, entries⟩ := block
    exact leaves_cons_iff.mpr (Nat.lt_succ_self _)

theorem not_leaves_entryRows (indent index : Nat) (entry : Entry) (entries : List Entry)
    (rest : List Row) : ¬Leaves (indent + 1) (entryRows indent index (entry :: entries) ++ rest) := by
  obtain ⟨description, blocks⟩ := entry
  exact fun h => Nat.lt_irrefl _ (leaves_cons_iff.mp h)

theorem not_leaves_blockRows (indent : Nat) (block : Outline) (blocks : List Outline)
    (rest : List Row) : ¬Leaves indent (blockRows indent (block :: blocks) ++ rest) := by
  obtain ⟨label, entries⟩ := block
  exact fun h => Nat.lt_irrefl _ (leaves_cons_iff.mp h)

mutual

/-- The lines of an outline end where a line lies no deeper than its head, so they determine the outline. -/
theorem rows_append_inj {indent : Nat} {rest rest' : List Row} (hrest : Leaves (indent + 1) rest)
    (hrest' : Leaves (indent + 1) rest') : (a b : Outline) →
    a.rows indent ++ rest = b.rows indent ++ rest' → a = b ∧ rest = rest'
  | ⟨label, entries⟩, ⟨label', entries'⟩, h => by
    rw [rows, rows, List.cons_append, List.cons_append] at h
    obtain ⟨hhead, htail⟩ := List.cons.inj h
    injection hhead with _ hitem
    injection hitem with hlabel
    obtain ⟨hentries, htail⟩ := entryRows_append_inj hrest hrest' entries entries' htail
    exact ⟨by rw [hlabel, hentries], htail⟩

theorem entryRows_append_inj {indent index : Nat} {rest rest' : List Row} (hrest : Leaves (indent + 1) rest)
    (hrest' : Leaves (indent + 1) rest') : (as bs : List Entry) →
    entryRows indent index as ++ rest = entryRows indent index bs ++ rest' → as = bs ∧ rest = rest'
  | [], [], h => ⟨rfl, h⟩
  | [], b :: bs, h => absurd ((show rest = _ from h) ▸ hrest) (not_leaves_entryRows indent index b bs rest')
  | a :: as, [], h => absurd ((show _ = rest' from h) ▸ hrest') (not_leaves_entryRows indent index a as rest)
  | ⟨description, blocks⟩ :: as, ⟨description', blocks'⟩ :: bs, h => by
    rw [entryRows, entryRows, List.cons_append, List.cons_append, List.append_assoc, List.append_assoc] at h
    obtain ⟨hhead, htail⟩ := List.cons.inj h
    injection hhead with _ hitem
    injection hitem with _ hdescription
    -- the blocks are over where the next valve begins, which lies further out than their heads
    obtain ⟨hblocks, htail⟩ := blockRows_append_inj (hrest.entryRows (index + 1) as)
      (hrest'.entryRows (index + 1) bs) blocks blocks' htail
    obtain ⟨hentries, htail⟩ := entryRows_append_inj hrest hrest' as bs htail
    exact ⟨by rw [hdescription, hblocks, hentries], htail⟩

theorem blockRows_append_inj {indent : Nat} {rest rest' : List Row} (hrest : Leaves indent rest)
    (hrest' : Leaves indent rest') : (as bs : List Outline) →
    blockRows indent as ++ rest = blockRows indent bs ++ rest' → as = bs ∧ rest = rest'
  | [], [], h => ⟨rfl, h⟩
  | [], b :: bs, h => absurd ((show rest = _ from h) ▸ hrest) (not_leaves_blockRows indent b bs rest')
  | a :: as, [], h => absurd ((show _ = rest' from h) ▸ hrest') (not_leaves_blockRows indent a as rest)
  | a :: as, b :: bs, h => by
    rw [blockRows, blockRows, List.append_assoc, List.append_assoc] at h
    obtain ⟨hblock, htail⟩ := rows_append_inj (hrest.blockRows as) (hrest'.blockRows bs) a b h
    obtain ⟨hblocks, htail⟩ := blockRows_append_inj hrest hrest' as bs htail
    exact ⟨by rw [hblock, hblocks], htail⟩

end

/-- No label and no description, at any depth, holds a line break. -/
inductive OneLine : Outline → Prop
  | intro {o : Outline} : (∀ name ∈ o.label, '\n' ∉ name.toList) →
    (∀ e ∈ o.entries, '\n' ∉ e.description.toList) → (∀ e ∈ o.entries, ∀ block ∈ e.blocks, OneLine block) →
    OneLine o

mutual

theorem OneLine.rows (indent : Nat) : (o : Outline) → o.OneLine → ∀ r ∈ o.rows indent, r.item.OneLine
  | ⟨label, entries⟩, .intro hlabel hentries hblocks => by
    rw [Outline.rows, List.forall_mem_cons]
    exact ⟨hlabel, OneLine.entryRows indent 0 entries hentries hblocks⟩

theorem OneLine.entryRows (indent index : Nat) : (entries : List Entry) →
    (∀ e ∈ entries, '\n' ∉ e.description.toList) → (∀ e ∈ entries, ∀ block ∈ e.blocks, block.OneLine) →
    ∀ r ∈ Outline.entryRows indent index entries, r.item.OneLine
  | [], _, _ => nofun
  | ⟨description, blocks⟩ :: entries, hentries, hblocks => by
    rw [List.forall_mem_cons] at hentries hblocks
    rw [Outline.entryRows, List.forall_mem_cons, List.forall_mem_append]
    exact ⟨hentries.1, OneLine.blockRows (indent + 2) blocks hblocks.1,
      OneLine.entryRows indent (index + 1) entries hentries.2 hblocks.2⟩

theorem OneLine.blockRows (indent : Nat) : (blocks : List Outline) → (∀ block ∈ blocks, block.OneLine) →
    ∀ r ∈ Outline.blockRows indent blocks, r.item.OneLine
  | [], _ => nofun
  | block :: blocks, hblocks => by
    rw [List.forall_mem_cons] at hblocks
    rw [Outline.blockRows, List.forall_mem_append]
    exact ⟨OneLine.rows indent block hblocks.1, OneLine.blockRows indent blocks hblocks.2⟩

end

theorem OneLine.display_inj {a b : Outline} (ha : a.OneLine) (hb : b.OneLine) {indent : Nat}
    (h : a.display indent = b.display indent) : a = b := by
  have hlist := congrArg String.toList h
  rw [toList_display, toList_display] at hlist
  have hrows := Row.lines_inj (OneLine.rows indent a ha) (OneLine.rows indent b hb) hlist
  have hover : Leaves (indent + 1) [] := nofun
  exact (rows_append_inj hover hover a b (congrArg (· ++ []) hrows)).1

end Outline

mutual

/-- The pipelines look the same: they have the same label, and valves that look the same, in order. -/
inductive Pipeline.SameShape : Pipeline → Pipeline → Prop
  | intro {p q : Pipeline} : p.label = q.label → List.Forall₂ Valve.SameShape p.valves q.valves →
    Pipeline.SameShape p q

inductive Valve.SameShape : Valve → Valve → Prop
  | intro {v w : Valve} : v.describe = w.describe →
    List.Forall₂ Pipeline.SameShape v.children w.children → Valve.SameShape v w

end

theorem map_eq_map_iff_forall₂ {α β : Type} {f : α → β} {R : α → α → Prop} {l l' : List α}
    (h : ∀ a ∈ l, ∀ b, f a = f b ↔ R a b) : l.map f = l'.map f ↔ List.Forall₂ R l l' := by
  induction l generalizing l' with
  | nil => cases l' <;> simp
  | cons a l ih =>
    rw [List.forall_mem_cons] at h
    cases l' with
    | nil => simp
    | cons b l' => rw [List.map_cons, List.map_cons, List.cons.injEq, List.forall₂_cons, h.1, ih h.2]

namespace Pipeline

theorem outline_eq_iff (p q : Pipeline) : p.outline = q.outline ↔ p.SameShape q := by
  have valves (v : Valve) (hv : v ∈ p.valves) (w : Valve) :
      (⟨v.describe, v.children.map outline⟩ : Outline.Entry) = ⟨w.describe, w.children.map outline⟩ ↔
        v.SameShape w := by
    have children : v.children.map outline = w.children.map outline ↔
        List.Forall₂ SameShape v.children w.children := by
      refine map_eq_map_iff_forall₂ fun c hc d => ?_
      have smaller : sizeOf c < sizeOf p := HasChild.sizeOf_lt ⟨v, hv, hc⟩
      exact outline_eq_iff c d
    rw [Outline.Entry.mk.injEq, children]
    constructor
    · rintro ⟨hdescribe, hchildren⟩
      exact .intro hdescribe hchildren
    · rintro ⟨hdescribe, hchildren⟩
      exact ⟨hdescribe, hchildren⟩
  have outline_eq (r : Pipeline) : r.outline =
      ⟨r.label, r.valves.map fun v => ⟨v.describe, v.children.map outline⟩⟩ := by
    obtain ⟨label, valves⟩ := r
    rw [outline, Valve.outlines_eq_map]
  rw [outline_eq, outline_eq, Outline.mk.injEq, map_eq_map_iff_forall₂ valves]
  constructor
  · rintro ⟨hlabel, hvalves⟩
    exact .intro hlabel hvalves
  · rintro ⟨hlabel, hvalves⟩
    exact ⟨hlabel, hvalves⟩
termination_by sizeOf p

/-- No label and no description of a valve, at any depth, holds a line break. -/
inductive OneLine : Pipeline → Prop
  | intro {p : Pipeline} : (∀ name ∈ p.label, '\n' ∉ name.toList) →
    (∀ v ∈ p.valves, '\n' ∉ v.describe.toList) → (∀ v ∈ p.valves, ∀ c ∈ v.children, OneLine c) → OneLine p

theorem OneLine.outline {p : Pipeline} (h : p.OneLine) : p.outline.OneLine := by
  induction h with
  | @intro p hlabel hvalves _ ih =>
    obtain ⟨label, valves⟩ := p
    rw [Pipeline.outline, Valve.outlines_eq_map]
    refine .intro hlabel ?_ ?_
    · rintro e he
      obtain ⟨v, hv, rfl⟩ := List.mem_map.mp he
      exact hvalves v hv
    · rintro e he block hblock
      obtain ⟨v, hv, rfl⟩ := List.mem_map.mp he
      obtain ⟨c, hc, rfl⟩ := List.mem_map.mp hblock
      exact ih v hv c hc

end Pipeline

/-- The display determines the tree. Two outlines, whatever valves they are of, in which no label and no
description holds a line break have the same display just if they are equal. So pipelines have the same
display just if they have the same label, as many valves with the same descriptions, and for each valve as
many children that again look the same. -/
theorem display_determines_tree :
    (∀ a b : Outline, a.OneLine → b.OneLine → (a.display 0 = b.display 0 ↔ a = b)) ∧
    ∀ p q : Pipeline, p.OneLine → q.OneLine → (p.display = q.display ↔ p.SameShape q) := by
  constructor
  · intro a b ha hb
    exact ⟨fun h => ha.display_inj hb h, fun h => h ▸ rfl⟩
  · intro p q hp hq
    rw [← Pipeline.outline_eq_iff]
    exact ⟨fun h => hp.outline.display_inj hq.outline h, fun h => congrArg (Outline.display 0) h⟩

private def scopeInside (counter : Option String) : Pipeline :=
  ⟨none, [.sub ⟨some "x", [.record "y" counter]⟩]⟩

private def lookalikes : Pipeline :=
  ⟨none, [.record "sub-pipeline" none, .record "pipeline [x]" none, .record "0: y" none]⟩

private theorem scopeInside_oneLine (counter : Option String) : (scopeInside counter).OneLine := by
  have inner : Pipeline.OneLine ⟨some "x", [.record "y" counter]⟩ := by
    refine .intro (fun name hname => ?_) (fun v hv => ?_) fun v hv => ?_
    · obtain rfl := Option.some.inj hname
      decide
    · obtain rfl := List.mem_singleton.mp hv
      exact show '\n' ∉ "y".toList by decide
    · obtain rfl := List.mem_singleton.mp hv
      exact nofun
  refine .intro nofun (fun v hv => ?_) fun v hv => ?_
  · obtain rfl := List.mem_singleton.mp hv
    exact show '\n' ∉ "sub-pipeline".toList by decide
  · obtain rfl := List.mem_singleton.mp hv
    exact fun c hc => List.mem_singleton.mp hc ▸ inner

private theorem lookalikes_oneLine : lookalikes.OneLine := by
  have names : ∀ v ∈ lookalikes.valves, '\n' ∉ v.describe.toList ∧ v.children = [] := by
    simp only [lookalikes, List.forall_mem_cons]
    exact ⟨⟨by decide, rfl⟩, ⟨by decide, rfl⟩, ⟨by decide, rfl⟩, nofun⟩
  refine .intro nofun (fun v hv => (names v hv).1) fun v hv c hc => ?_
  rw [(names v hv).2] at hc
  cases hc

theorem display_determines_tree_of_lookalikes :
    lookalikes.display ≠ (scopeInside none).display ∧
    (scopeInside (some "n")).display = (scopeInside none).display ∧
    Outline.display 0 ⟨none, [⟨"0: y", [⟨some "x", []⟩]⟩]⟩ ≠
      Outline.display 0 ⟨none, [⟨"0: y", []⟩, ⟨"pipeline [x]", []⟩]⟩ := by
  obtain ⟨outlines, pipelines⟩ := display_determines_tree
  refine ⟨fun h => ?_, ?_, fun h => ?_⟩
  · obtain ⟨-, hvalves⟩ := (pipelines _ _ lookalikes_oneLine (scopeInside_oneLine none)).mp h
    cases hvalves.length_eq
  · refine (pipelines _ _ (scopeInside_oneLine _) (scopeInside_oneLine none)).mpr ?_
    exact .intro rfl (.cons (.intro rfl (.cons (.intro rfl (.cons (.intro rfl .nil) .nil)) .nil)) .nil)
  · have inner : Outline.OneLine ⟨some "x", []⟩ := by
      refine .intro (fun name hname => ?_) nofun nofun
      obtain rfl := Option.some.inj hname
      decide
    have nested : Outline.OneLine ⟨none, [⟨"0: y", [⟨some "x", []⟩]⟩]⟩ := by
      refine .intro nofun ?_ ?_
      · simp only [List.forall_mem_singleton]
        decide
      · simpa using inner
    have flat : Outline.OneLine ⟨none, [⟨"0: y", []⟩, ⟨"pipeline [x]", []⟩]⟩ := by
      refine .intro nofun ?_ ?_
      · simp only [List.forall_mem_cons]
        decide
      · simp
    injection (outlines _ _ nested flat).mp h with _ hentries
    cases congrArg List.length hentries

/-- A line break in a name is taken for the end of a line. -/
example : (⟨none, [.record "a\n  1: b" none]⟩ : Pipeline).display =
    (⟨none, [.record "a" none, .record "b" none]⟩ : Pipeline).display := by
  rfl

end ValvePipeline
