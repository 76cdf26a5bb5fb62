import ValvePipeline.Proofs.Parts

/-!
What a trail looks like after a break request. The scopes are left one after the other, innermost
first: the running valves of a scope end, then its walk, and then the finally block runs that the
valve around the scope may have. The signal stops at the boundary that it reaches, and the walk around
that boundary goes on; a signal that reaches no boundary ends the run.

A finally block that fails or leaves a signal of its own takes the place of the request, and the
allowance of steps may be spent inside it; these are the only other ways in which it can go on.
-/

set_option autoImplicit false
set_option relaxedAutoImplicit false

namespace ValvePipeline

namespace Signal

/-- How many scopes a signal stops, of those with these labels, innermost first. An exit, or a label
that no scope has, is not counted out. -/
def reach (labels : List (Option String)) : Signal → Option Nat
  | .level count => some (count + 1)
  | .label name => (labels.findIdx? (· == some name)).map (· + 1)
  | .exit => none

def residue (count : Nat) : Signal → Signal
  | .level levels => .level (levels - count)
  | signal => signal

def Survives (labels : List (Option String)) : Signal → Prop
  | .level levels => labels.length ≤ levels
  | .label name => some name ∉ labels
  | .exit => True

theorem survives_nil (signal : Signal) : signal.Survives [] := by
  cases signal <;> simp [Survives]

@[simp] theorem residue_zero (signal : Signal) : signal.residue 0 = signal := by
  cases signal <;> rfl

theorem Survives.concat {labels : List (Option String)} {label : Option String}
    {signal next : Signal} (h : signal.Survives labels)
    (hnext : (signal.residue labels.length).atBoundary label = .propagate next) :
    signal.Survives (labels ++ [label]) ∧ next = signal.residue (labels.length + 1) := by
  cases signal with
  | level levels =>
    cases hleft : levels - labels.length with
    | zero => simp [residue, hleft, atBoundary] at hnext
    | succ left =>
      simp only [residue, hleft, atBoundary, Decision.propagate.injEq] at hnext
      constructor
      · simp only [Survives, List.length_append, List.length_singleton]
        omega
      · rw [← hnext, residue]
        congr 1
        omega
  | label name =>
    simp only [residue, atBoundary] at hnext
    split at hnext
    · cases hnext
    · rename_i hlabel
      obtain rfl := Decision.propagate.inj hnext
      exact ⟨by simpa [Survives, Ne.symm hlabel] using h, rfl⟩
  | exit => exact ⟨trivial, (Decision.propagate.inj hnext).symm⟩

private theorem findIdx?_eq_none_of_notMem {labels : List (Option String)} {label : Option String}
    (h : label ∉ labels) : labels.findIdx? (· == label) = none := by
  rw [List.findIdx?_eq_none_iff]
  intro x hx
  simp only [beq_eq_false_iff_ne]
  rintro rfl
  exact h hx

theorem Survives.reach_eq {labels : List (Option String)} {label : Option String}
    {signal : Signal} (h : signal.Survives labels) (more : List (Option String))
    (habsorb : (signal.residue labels.length).atBoundary label = .absorb) :
    signal.reach (labels ++ label :: more) = some (labels.length + 1) := by
  rw [atBoundary_eq_absorb_iff] at habsorb
  cases signal with
  | level levels =>
    have hleft : levels - labels.length = 0 := by simpa [residue] using habsorb
    have hle : labels.length ≤ levels := h
    simp only [reach, Option.some.injEq]
    omega
  | label name =>
    have hlabel : label = some name := by simpa [residue] using habsorb
    have hskip := findIdx?_eq_none_of_notMem h
    simp [reach, hlabel, List.findIdx?_append, hskip, List.findIdx?_cons]
  | exit => simp [residue] at habsorb

theorem Survives.lt_reach {labels more : List (Option String)} {signal : Signal} {count : Nat}
    (h : signal.Survives labels) (hreach : signal.reach (labels ++ more) = some count) :
    labels.length < count := by
  cases signal with
  | level levels =>
    have hle : labels.length ≤ levels := h
    simp only [reach, Option.some.injEq] at hreach
    omega
  | label name =>
    have hskip := findIdx?_eq_none_of_notMem h
    simp only [reach, List.findIdx?_append, hskip, Option.none_or, Option.map_map,
      Option.map_eq_some_iff] at hreach
    obtain ⟨i, -, rfl⟩ := hreach
    simp only [Function.comp_apply]
    omega
  | exit => cases hreach

end Signal

namespace Frame

def valve? (f : Frame) : Option Valve :=
  f.cursor.bind (f.pipeline.valves[·]?)

def begun (f : Frame) : Frame :=
  { f with cursor := some f.next, reached := some f.next }

def leavingTo (f : Frame) (place : Nat) : List Mark :=
  ((List.range f.next).drop place).reverse.map (.leaveValve · none)

def leaving (f : Frame) : List Mark :=
  f.leavingTo 0 ++ [.leavePipeline none]

theorem leavingTo_concat {f : Frame} {place : Nat} (h : place < f.next) :
    f.leavingTo (place + 1) ++ [.leaveValve place none] = f.leavingTo place := by
  simp only [leavingTo, drop_range_eq_cons h, List.reverse_cons, List.map_append, List.map_cons, List.map_nil]

theorem leavingTo_next (f : Frame) : f.leavingTo f.next = [] := by
  simp [leavingTo]

end Frame

def Moment.valve? (m : Moment) : Option Valve :=
  m.frames.head?.bind Frame.valve?

def labels (frames : List Frame) : List (Option String) :=
  frames.map (·.pipeline.label)

/-- The block has to run when this scope is left: it is the finally block of the valve around the
scope, and it was the turn of one of the blocks before it when the scope was entered. -/
def Owes (before : List Moment) (outer : List Frame) (scope block : Pipeline) : Prop :=
  ∃ tryBlock catchBlock config part,
    outer.head?.bind Frame.valve? = some (.guarded tryBlock catchBlock (some block) config) ∧
      Guarded.Turn tryBlock catchBlock (some block) (Trail.ended outer.length before) part scope ∧
      part ≠ .last

/-- Nothing has to run when this scope is left: the valve around it has no finally block, or it was
the turn of that block when the scope was entered. -/
def OwesNothing (before : List Moment) (outer : List Frame) (scope : Pipeline) : Prop :=
  ∀ tryBlock catchBlock block config,
    outer.head?.bind Frame.valve? = some (.guarded tryBlock catchBlock (some block) config) →
      Guarded.Turn tryBlock catchBlock (some block) (Trail.ended outer.length before) .last scope

theorem OwesNothing.of_outermost (before : List Moment) (scope : Pipeline) :
    OwesNothing before [] scope := by
  intro tryBlock catchBlock block config hvalve
  cases hvalve

/-- The moments of a walk of the block, from its beginning, with no signal pending then, up to some
moment before its end. -/
def Underway (outer : List Frame) (block : Pipeline) (moments : List Moment) : Prop :=
  ∃ inside, moments = ⟨.enterPipeline block.label, { pipeline := block } :: outer, none⟩ :: inside ∧
    ∀ m ∈ inside, ∃ inner f, m.frames = inner ++ f :: outer ∧ f.pipeline = block

theorem Underway.deeper {outer : List Frame} {block : Pipeline} {moments : List Moment}
    (h : Underway outer block moments) : ∀ m ∈ moments, outer.length < m.frames.length := by
  obtain ⟨inside, rfl, hinside⟩ := h
  refine List.forall_mem_cons.mpr ⟨Nat.lt_succ_self _, fun m hm => ?_⟩
  obtain ⟨inner, f, hframes, -⟩ := hinside m hm
  simp only [hframes, List.length_append, List.length_cons]
  omega

theorem Underway.ended_eq {outer : List Frame} {block : Pipeline} {moments : List Moment}
    (h : Underway outer block moments) (history : List Moment) :
    Trail.ended outer.length (history ++ moments) = Trail.ended outer.length history :=
  Trail.ended_append_of_deeper h.deeper

/-- What runs between the end of a scope and its boundary: nothing, or a finally block, which ends
without a failure and leaves no signal. -/
inductive Clears (before : List Moment) (outer : List Frame) (scope : Pipeline) :
    List Moment → Prop
  | nothing : OwesNothing before outer scope → Clears before outer scope []
  | block {block : Pipeline} {moments : List Moment} : Owes before outer scope block →
    Underway outer block moments →
    Clears before outer scope (moments ++ [⟨.leavePipeline none, outer, none⟩])

/-- The moments in which scopes are left, innermost first, after a request that something came before.
The other walks go on. -/
inductive Unwinds (before : List Moment) : List Frame → List Frame → List Moment → Prop
  | nil {outer : List Frame} : Unwinds before [] outer []
  | concat {scopes outer : List Frame} {f : Frame} {sofar leave clear : List Moment} :
    Unwinds before scopes (f :: outer) sofar → leave.map (·.mark) = f.leaving →
    Clears before outer f.pipeline clear →
    Unwinds before (scopes ++ [f]) outer (sofar ++ leave ++ clear)

def Mark.begins : Mark → Bool
  | .enterValve _ | .iterate _ => true
  | _ => false

def InFinally (before : List Moment) (scopes outer : List Frame) (r : Moment) : Prop :=
  ∃ inner f others block, scopes = inner ++ f :: others ∧
    Owes before (others ++ outer) f.pipeline block ∧
    ∃ deep g, r.frames = deep ++ g :: (others ++ outer) ∧ g.pipeline = block

private theorem Frame.begins_of_mem_leaving {f : Frame} {m : Mark} (h : m ∈ f.leaving) :
    m.begins = false := by
  rcases List.mem_append.mp h with h | h
  · obtain ⟨i, -, rfl⟩ := List.mem_map.mp h
    rfl
  · obtain rfl := List.mem_singleton.mp h
    rfl

/-- While scopes are left nothing begins outside of their finally blocks. -/
theorem Unwinds.inFinally {before : List Moment} {scopes outer : List Frame} {moments : List Moment}
    (h : Unwinds before scopes outer moments) {r : Moment} (hr : r ∈ moments)
    (hbegins : r.mark.begins = true) : InFinally before scopes outer r := by
  induction h with
  | nil => cases hr
  | @concat scopes outer f sofar leave clear _ hleave hclear ih =>
    rcases List.mem_append.mp hr with hr | hr
    · rcases List.mem_append.mp hr with hr | hr
      · obtain ⟨inner, g, others, block, rfl, howes, deep, h, hframes, hblock⟩ := ih hr
        refine ⟨inner, g, others ++ [f], block, by simp, ?_, deep, h, ?_, hblock⟩
        · simpa using howes
        · simpa using hframes
      · have hmark : r.mark ∈ f.leaving := hleave ▸ List.mem_map_of_mem hr
        rw [Frame.begins_of_mem_leaving hmark] at hbegins
        cases hbegins
    · cases hclear with
      | nothing => cases hr
      | @block block moments howes hunderway =>
        obtain ⟨inside, rfl, hinside⟩ := hunderway
        rcases List.mem_append.mp hr with hr | hr
        · rcases List.mem_cons.mp hr with rfl | hr
          · cases hbegins
          · exact ⟨scopes, f, [], block, rfl, howes, hinside r hr⟩
        · obtain rfl := List.mem_singleton.mp hr
          cases hbegins

/-- A walk goes on behind its running valve: the valve after it starts next, and where there is none the
running valve itself ends next, without a failure. -/
inductive Resumes (f : Frame) (outer : List Frame) : List Moment → Prop
  | next {r : Moment} {rest : List Moment} : f.next < f.pipeline.valves.length →
    r.mark = .enterValve f.next → r.frames = f.begun :: outer → Resumes f outer (r :: rest)
  | last {r : Moment} {rest : List Moment} {place : Nat} {cursor : Option Nat} :
    f.pipeline.valves.length ≤ f.next → f.next = place + 1 → r.mark = .leaveValve place none →
    r.frames = { f with cursor } :: outer → ({ f with cursor } : Frame).next = place →
    Resumes f outer (r :: rest)

/-- Some scopes were left, and one more up to its finally block, which has run so far. The signal has
passed the boundaries of the former. -/
def ReachesBlock (before : List Moment) (m : Moment) (signal : Signal) (outer : List Frame)
    (after : List Moment) : Prop :=
  ∃ scopes f block sofar leave moments, m.frames = scopes ++ f :: outer ∧
    signal.Survives (labels scopes) ∧ Unwinds before scopes (f :: outer) sofar ∧
    leave.map (·.mark) = f.leaving ∧ Owes before outer f.pipeline block ∧
    Underway outer block moments ∧ after = sofar ++ leave ++ moments

/-- What becomes of a request: of the moments before it, its moment, its signal and the moments after
it. -/
abbrev Fate := List Moment → Moment → Signal → List Moment → Prop

/-- A finally block fails or leaves a signal of its own, while the scopes are left. -/
def Spoiled : Fate := fun before m signal after =>
  ∃ outer sofar failure pending rest, ReachesBlock before m signal outer sofar ∧
    after = sofar ++ ⟨.leavePipeline failure, outer, pending⟩ :: rest ∧
    (failure.isSome = true ∨ pending.isSome = true)

/-- The run is cut off inside a finally block, while the scopes are left. -/
def CutShort : Fate := fun before m signal after =>
  ∃ outer, ReachesBlock before m signal outer after

def Resumed : Fate := fun before m signal after =>
  ∃ scopes g outer unwound rest, m.frames = scopes ++ g :: outer ∧
    signal.reach (labels m.frames) = some scopes.length ∧ after = unwound ++ rest ∧
    Unwinds before scopes (g :: outer) unwound ∧ Resumes g outer rest

def Done : Fate := fun before m signal after =>
  Resumed before m signal after ∨ Spoiled before m signal after

theorem Resumes.append {f : Frame} {outer : List Frame} {after : List Moment}
    (h : Resumes f outer after) (more : List Moment) : Resumes f outer (after ++ more) := by
  cases h with
  | next hlt hmark hframes => exact .next hlt hmark hframes
  | last hle hnext hmark hframes hback => exact .last hle hnext hmark hframes hback

theorem Done.append {before : List Moment} {m : Moment} {signal : Signal} {after : List Moment}
    (h : Done before m signal after) (more : List Moment) :
    Done before m signal (after ++ more) := by
  rcases h with ⟨scopes, g, outer, unwound, rest, hm, hreach, rfl, hunwinds, hresumes⟩ |
    ⟨outer, sofar, failure, pending, rest, hblock, rfl, hbad⟩
  · exact .inl ⟨scopes, g, outer, unwound, rest ++ more, hm, hreach, List.append_assoc .., hunwinds,
      hresumes.append more⟩
  · exact .inr ⟨outer, sofar, failure, pending, rest ++ more, hblock, by simp, hbad⟩

def DoneOr (fate : Fate) : Fate := fun before m signal after =>
  Done before m signal after ∨ fate before m signal after

def Fates (fate : Fate) (history moments : List Moment) : Prop :=
  ∀ before m after signal, moments = before ++ m :: after → m.mark = .request signal →
    fate (history ++ before) m signal after

namespace Fates

variable {fate weaker : Fate} {history a b : List Moment}

theorem nil : Fates fate history [] := by
  intro before m after signal h
  simp at h

theorem mono (h : Fates fate history a) (hweaker : ∀ before m signal after,
    fate before m signal after → weaker before m signal after) : Fates weaker history a :=
  fun before m after signal split hm => hweaker _ _ _ _ (h before m after signal split hm)

theorem within (h : Fates fate history a) {depth : Nat}
    (hdeep : ∀ m ∈ a, depth < m.frames.length) :
    Fates (fun before m signal after => fate before m signal after ∧
      Trail.ended depth before = Trail.ended depth history) history a := by
  intro before m after signal split hm
  refine ⟨h before m after signal split hm, Trail.ended_append_of_deeper fun r hr => ?_⟩
  exact hdeep r (split ▸ List.mem_append_left _ hr)

theorem append (ha : Fates (fun before m signal after => fate before m signal (after ++ b)) history a)
    (hb : Fates fate (history ++ a) b) : Fates fate history (a ++ b) := by
  intro before m after signal split hm
  rcases List.append_eq_append_iff.mp split with ⟨more, rfl, hb'⟩ | ⟨more, rfl, hmore⟩
  · rw [← List.append_assoc]
    exact hb more m after signal hb' hm
  · cases more with
    | nil =>
      have hfate := hb [] m after signal (by simpa using hmore.symm) hm
      simpa using hfate
    | cons r more =>
      obtain ⟨rfl, rfl⟩ := List.cons.inj hmore
      exact ha before m more signal rfl hm

theorem single {r : Moment} (h : ∀ signal, r.mark ≠ .request signal) : Fates fate history [r] := by
  intro before m after signal split hm
  have : m ∈ [r] := by rw [split]; simp
  obtain rfl := List.mem_singleton.mp this
  exact absurd hm (h signal)

theorem cons {r : Moment} (h : ∀ signal, r.mark ≠ .request signal)
    (ha : Fates fate (history ++ [r]) a) : Fates fate history (r :: a) :=
  append (single h) ha

theorem done_append (ha : Fates Done history a) (hb : Fates Done (history ++ a) b) :
    Fates Done history (a ++ b) := by
  refine append (ha.mono fun before m signal after hdone => ?_) hb
  exact hdone.append b

theorem done_concat {r : Moment} (ha : Fates Done history a)
    (h : ∀ signal, r.mark ≠ .request signal) : Fates Done history (a ++ [r]) :=
  ha.done_append (single h)

theorem done_or (ha : Fates Done history a) : Fates (DoneOr fate) history a := by
  intro before m after signal split hm
  exact .inl (ha before m after signal split hm)

theorem done_append_or (ha : Fates Done history a) (hb : Fates (DoneOr fate) (history ++ a) b) :
    Fates (DoneOr fate) history (a ++ b) := by
  refine append (ha.mono fun before m signal after hdone => ?_) hb
  exact .inl (hdone.append b)

theorem or_append {next : Fate} (ha : Fates (DoneOr fate) history a)
    (hnext : ∀ before m signal after, fate before m signal after →
      DoneOr next before m signal (after ++ b))
    (hb : Fates (DoneOr next) (history ++ a) b) : Fates (DoneOr next) history (a ++ b) := by
  refine append (ha.mono fun before m signal after hfate => ?_) hb
  rcases hfate with hdone | hopen
  · exact .inl (hdone.append b)
  · exact hnext before m signal after hopen

theorem or_concat {r : Moment} {next : Fate} (ha : Fates (DoneOr fate) history a)
    (h : ∀ signal, r.mark ≠ .request signal)
    (hnext : ∀ before m signal after, fate before m signal after →
      next before m signal (after ++ [r])) : Fates (DoneOr next) history (a ++ [r]) := by
  refine ha.or_append (fun before m signal after hopen => ?_) (single h)
  exact .inr (hnext before m signal after hopen)

theorem or_append_done (ha : Fates (DoneOr fate) history a)
    (hnext : ∀ before m signal after, fate before m signal after →
      Done before m signal (after ++ b))
    (hb : Fates Done (history ++ a) b) : Fates Done history (a ++ b) := by
  refine append (ha.mono fun before m signal after hfate => ?_) hb
  rcases hfate with hdone | hopen
  · exact hdone.append b
  · exact hnext before m signal after hopen

end Fates

end ValvePipeline
