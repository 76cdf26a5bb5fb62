import ValvePipeline.Proofs.WalkStack

/-!
Reading a trail. The marks of one walk tell which valves of it began and ended; marks of walks inside
it do not count. The trail of every run is such that the valves of a walk nest: each one begins while
the one before it runs, and ends before that one ends.
-/

set_option autoImplicit false
set_option relaxedAutoImplicit false

namespace ValvePipeline

inductive Turn where
  | starts (place : Nat)
  | ends (place : Nat)
  deriving DecidableEq

namespace Mark

/-- The turn that a mark tells of, for a walk with a number of walks under way inside it. -/
def turn : Nat → Mark → List Turn
  | 0, .enterValve i => [.starts i]
  | 0, .leaveValve i _ => [.ends i]
  | _, _ => []

def inside : Nat → Mark → Option Nat
  | inner, .enterPipeline _ => some (inner + 1)
  | 0, .leavePipeline _ => none
  | inner + 1, .leavePipeline _ => some inner
  | inner, _ => some inner

def running (walks : List (List Nat)) : Mark → List (List Nat)
  | .enterPipeline _ => [] :: walks
  | .leavePipeline _ => walks.tail
  | .enterValve i => walks.modifyHead (i :: ·)
  | .leaveValve _ _ => walks.modifyHead List.tail
  | _ => walks

theorem turn_of_isPlain {m : Mark} (h : m.isPlain = true) (inner : Nat) : m.turn inner = [] := by
  cases m <;> cases inner <;> simp_all [turn, isPlain]

theorem inside_of_isPlain {m : Mark} (h : m.isPlain = true) (inner : Nat) :
    m.inside inner = some inner := by
  cases m <;> simp_all [inside, isPlain]

theorem running_of_isPlain {m : Mark} (h : m.isPlain = true) (walks : List (List Nat)) :
    m.running walks = walks := by
  cases m <;> simp_all [running, isPlain]

end Mark

namespace Trail

def inside : Nat → List Mark → Option Nat
  | inner, [] => some inner
  | inner, m :: marks => (m.inside inner).bind (inside · marks)

def turns : Nat → List Mark → List Turn
  | _, [] => []
  | inner, m :: marks =>
    m.turn inner ++
      match m.inside inner with
      | none => []
      | some inner => turns inner marks

def running (marks : List Mark) : List (List Nat) :=
  marks.foldl Mark.running []

/-- The turns of a walk in which a number of valves have started and those from a place on have
ended. -/
def nestTo (started next : Nat) : List Turn :=
  (List.range started).map .starts ++ ((List.range started).drop next).reverse.map .ends

/-- Valves that start one inside the other, and end in the opposite order. -/
def nest (n : Nat) : List Turn :=
  nestTo n 0

theorem nestTo_starts (n : Nat) : nestTo n n ++ [.starts n] = nestTo (n + 1) (n + 1) := by
  simp [nestTo, List.drop_eq_nil_of_le, List.range_succ]

theorem nestTo_ends {next started : Nat} (h : next < started) :
    nestTo started (next + 1) ++ [.ends next] = nestTo started next := by
  simp only [nestTo, drop_range_eq_cons h, List.reverse_cons, List.map_append, List.map_cons, List.map_nil,
    List.append_assoc]

theorem nestTo_prefix (started next : Nat) : nestTo started next <+: nest started := by
  refine ⟨((List.range started).take next).reverse.map .ends, ?_⟩
  rw [nest, nestTo, nestTo, List.append_assoc, ← List.map_append, ← List.reverse_append,
    List.take_append_drop, List.drop_zero]

theorem inside_append (inner : Nat) (a b : List Mark) :
    inside inner (a ++ b) = (inside inner a).bind (inside · b) := by
  induction a generalizing inner with
  | nil => rfl
  | cons m a ih =>
    cases h : m.inside inner with
    | none => simp [inside, h]
    | some k => simp [inside, h, ih]

theorem turns_append (inner : Nat) (a b : List Mark) :
    turns inner (a ++ b) = turns inner a ++
      match inside inner a with
      | none => []
      | some k => turns k b := by
  induction a generalizing inner with
  | nil => rfl
  | cons m a ih =>
    cases h : m.inside inner with
    | none => simp [turns, inside, h]
    | some k => simp [turns, inside, h, ih]

theorem inside_concat (after : List Mark) (m : Mark) :
    inside 0 (after ++ [m]) = (inside 0 after).bind (m.inside ·) := by
  rw [inside_append]
  cases inside 0 after with
  | none => rfl
  | some k => cases h : m.inside k <;> simp [inside, h]

theorem turns_concat (after : List Mark) (m : Mark) :
    turns 0 (after ++ [m]) = turns 0 after ++
      match inside 0 after with
      | none => []
      | some k => m.turn k := by
  rw [turns_append]
  cases inside 0 after with
  | none => rfl
  | some k => cases h : m.inside k <;> simp [turns, h]

theorem running_concat (marks : List Mark) (m : Mark) :
    running (marks ++ [m]) = m.running (running marks) := by
  simp [running]

end Trail

namespace Frame

def turns (f : Frame) : List Turn :=
  Trail.nestTo f.started f.next

def running (f : Frame) : List Nat :=
  (List.range f.next).reverse

theorem next_of_cursor {f : Frame} {i : Nat} (h : f.cursor = some i) : f.next = i + 1 := by
  simp [next, h]

theorem head?_running (f : Frame) : f.running.head? = f.cursor := by
  cases h : f.cursor with
  | none => simp [running, next, h]
  | some i => simp [running, next, h, List.range_succ]

end Frame

/-- What a mark says of the walks: those under way before it and those under way after it. -/
inductive Moved : Mark → List Frame → List Frame → Prop
  | plain {m : Mark} {frames : List Frame} : m.isPlain = true → Moved m frames frames
  | enterPipeline {p : Pipeline} {frames : List Frame} :
    Moved (.enterPipeline p.label) frames ({ pipeline := p } :: frames)
  | leavePipeline {f : Frame} {frames : List Frame} {failure : Option ValveFailure} :
    f.cursor = none → Moved (.leavePipeline failure) (f :: frames) frames
  | enterValve {f : Frame} {outer : List Frame} : f.started ≤ f.next →
    Moved (.enterValve f.next) (f :: outer)
      ({ f with cursor := some f.next, reached := some f.next } :: outer)
  | leaveValve {f g : Frame} {outer : List Frame} {failure : Option ValveFailure} :
    g.cursor = some f.next → Moved (.leaveValve f.next failure) (g :: outer)
      ({ g with cursor := f.cursor } :: outer)

/-- The valves of every walk that the marks tell of are nested: of one that has ended they were, and
of one that is under way they are so far, as its frame says. -/
def Trail.Nests (marks : List Mark) (frames : List Frame) : Prop :=
  ∀ before label after, marks = before ++ .enterPipeline label :: after →
    match Trail.inside 0 after with
    | some k => ∃ f, frames[k]? = some f ∧ Trail.turns 0 after = f.turns
    | none => ∃ n, Trail.turns 0 after = Trail.nest n

/-- The frames of a session are what its trail tells of the walks. -/
structure Disciplined (s : Session) : Prop where
  /-- A running valve was started. -/
  bounded : ∀ f ∈ s.frames, f.next ≤ f.started
  nests : Trail.Nests (s.trail.map (·.mark)) s.frames
  /-- No valve started while a signal was pending. -/
  fresh : ∀ m ∈ s.trail, ∀ i, m.mark = .enterValve i → m.pending = none
  /-- The walks under way are the frames, now and at each moment of the trail. -/
  running : Trail.running (s.trail.map (·.mark)) = s.frames.map Frame.running
  moments : ∀ before m after, s.trail = before ++ m :: after →
    Trail.running ((before ++ [m]).map (·.mark)) = m.frames.map Frame.running

namespace Moved

variable {m : Mark} {a b : List Frame}

theorem bounded (h : Moved m a b) (ha : ∀ f ∈ a, f.next ≤ f.started) :
    ∀ f ∈ b, f.next ≤ f.started := by
  cases h with
  | plain _ => exact ha
  | enterPipeline => simpa [Frame.next, Frame.started] using ha
  | leavePipeline _ => exact fun f hf => ha f (List.mem_cons_of_mem _ hf)
  | @enterValve f outer hnew =>
    have := fun g hg => ha g (List.mem_cons_of_mem _ hg)
    simpa [Frame.next, Frame.started] using this
  | @leaveValve f g outer failure hcursor =>
    have hg : g.next ≤ g.started := ha g List.mem_cons_self
    rw [Frame.next_of_cursor hcursor] at hg
    intro h hh
    rcases List.mem_cons.mp hh with rfl | hh
    · exact Nat.le_of_succ_le hg
    · exact ha h (List.mem_cons_of_mem _ hh)

theorem running (h : Moved m a b) : m.running (a.map Frame.running) = b.map Frame.running := by
  cases h with
  | plain hm => exact Mark.running_of_isPlain hm _
  | enterPipeline => simp [Mark.running, Frame.running, Frame.next]
  | leavePipeline _ => simp [Mark.running]
  | enterValve _ => simp [Mark.running, Frame.running, Frame.next, List.range_succ]
  | @leaveValve f g outer failure hcursor =>
    have hg : g.next = f.next + 1 := Frame.next_of_cursor hcursor
    have hf : ({ g with cursor := f.cursor } : Frame).next = f.next := rfl
    simp [Mark.running, Frame.running, hg, hf, List.range_succ]

theorem walk (h : Moved m a b) (ha : ∀ f ∈ a, f.next ≤ f.started) {k : Nat} {f : Frame}
    (hf : a[k]? = some f) :
    match m.inside k with
    | some k' => ∃ g, b[k']? = some g ∧ f.turns ++ m.turn k = g.turns
    | none => ∃ n, f.turns ++ m.turn k = Trail.nest n := by
  cases h with
  | plain hm =>
    rw [Mark.inside_of_isPlain hm, Mark.turn_of_isPlain hm]
    exact ⟨f, hf, List.append_nil _⟩
  | enterPipeline => cases k <;> exact ⟨f, hf, List.append_nil _⟩
  | @leavePipeline g outer failure hcursor =>
    cases k with
    | zero =>
      obtain rfl : g = f := by simpa using hf
      have hnext : g.next = 0 := by simp [Frame.next, hcursor]
      exact ⟨g.started, by simp [Frame.turns, Trail.nest, Mark.turn, hnext]⟩
    | succ k => exact ⟨f, hf, List.append_nil _⟩
  | @enterValve g outer hnew =>
    cases k with
    | zero =>
      obtain rfl : g = f := by simpa using hf
      have hstarted : g.started = g.next := Nat.le_antisymm hnew (ha g List.mem_cons_self)
      refine ⟨_, rfl, ?_⟩
      rw [Frame.turns, hstarted]
      exact Trail.nestTo_starts g.next
    | succ k => exact ⟨f, hf, List.append_nil _⟩
  | @leaveValve f' g outer failure hcursor =>
    cases k with
    | zero =>
      obtain rfl : g = f := by simpa using hf
      have hnext : g.next = f'.next + 1 := Frame.next_of_cursor hcursor
      have hlt : f'.next < g.started := Nat.lt_of_lt_of_le (by omega) (ha g List.mem_cons_self)
      refine ⟨_, rfl, ?_⟩
      rw [Frame.turns, hnext]
      exact Trail.nestTo_ends hlt
    | succ k => exact ⟨f, hf, List.append_nil _⟩

theorem nests (h : Moved m a b) (ha : ∀ f ∈ a, f.next ≤ f.started) {marks : List Mark}
    (hmarks : Trail.Nests marks a) : Trail.Nests (marks ++ [m]) b := by
  intro before label after split
  rcases List.eq_nil_or_concat after with rfl | ⟨after', last, rfl⟩
  · obtain ⟨-, hm⟩ := List.append_inj' split rfl
    obtain rfl := List.singleton_inj.mp hm
    cases h with
    | plain hm => cases hm
    | enterPipeline => exact ⟨_, rfl, rfl⟩
  · rw [List.concat_eq_append, ← List.cons_append, ← List.append_assoc] at split
    obtain ⟨hold, hm⟩ := List.append_inj' split rfl
    obtain rfl := List.singleton_inj.mp hm
    have old := hmarks before label after' hold
    rw [List.concat_eq_append, Trail.inside_concat, Trail.turns_concat]
    cases hinside : Trail.inside 0 after' with
    | none => simpa [hinside] using old
    | some k =>
      obtain ⟨f, hf, hturns⟩ := by simpa only [hinside] using old
      have new := h.walk ha hf
      rw [← hturns] at new
      exact new

end Moved

namespace Disciplined

variable {s t : Session}

theorem of_eq (h : Disciplined s) (hframes : t.frames = s.frames) (htrail : t.trail = s.trail) :
    Disciplined t where
  bounded := hframes ▸ h.bounded
  nests := by
    rw [hframes, htrail]
    exact h.nests
  fresh := htrail ▸ h.fresh
  running := by
    rw [hframes, htrail]
    exact h.running
  moments := htrail ▸ h.moments

/-- One mark keeps the discipline. -/
theorem step {m : Mark} (h : Disciplined s) (moved : Moved m s.frames t.frames)
    (htrail : t.trail = s.trail ++ [⟨m, t.frames, t.pending⟩])
    (hpending : ∀ i, m = .enterValve i → t.pending = none) : Disciplined t where
  bounded := moved.bounded h.bounded
  nests := by
    rw [htrail, List.map_append]
    exact moved.nests h.bounded h.nests
  fresh := by
    rw [htrail]
    intro moment hmoment i hi
    rcases List.mem_append.mp hmoment with hold | hnew
    · exact h.fresh moment hold i hi
    · obtain rfl := List.mem_singleton.mp hnew
      exact hpending i hi
  running := by
    rw [htrail, List.map_append, List.map_singleton, Trail.running_concat, h.running]
    exact moved.running
  moments before moment after split := by
    rw [htrail] at split
    rcases List.eq_nil_or_concat after with rfl | ⟨after', last, rfl⟩
    · obtain ⟨rfl, hmoment⟩ := List.append_inj' split rfl
      obtain rfl := List.singleton_inj.mp hmoment
      rw [List.map_append, List.map_singleton, Trail.running_concat, h.running]
      exact moved.running
    · rw [List.concat_eq_append, ← List.cons_append, ← List.append_assoc] at split
      exact h.moments before moment after' (List.append_inj' split rfl).1

private theorem enterPipeline (h : Disciplined s) (p : Pipeline) :
    Disciplined (s.enterPipeline p) :=
  h.step .enterPipeline (Session.trail_mark _ _) nofun

private theorem leavePipeline (h : Disciplined t) {f : Frame}
    (hframes : t.frames = f :: s.frames) (hcursor : f.cursor = none)
    (failure : Option ValveFailure) : Disciplined (t.leavePipeline failure) := by
  refine h.step (m := .leavePipeline failure) ?_ (Session.trail_mark _ _) nofun
  have hleft : (t.leavePipeline failure).frames = s.frames := by
    simp [Session.leavePipeline, hframes]
  rw [hleft, hframes]
  exact .leavePipeline hcursor

private theorem enterValve (h : Disciplined s) {frame : Frame} {outer : List Frame}
    (hpending : s.pending = none) (hframes : s.frames = frame :: outer)
    (hnew : frame.hasStarted frame.next = false) :
    Disciplined (s.enterValve frame outer frame.next) := by
  refine h.step (m := .enterValve frame.next) ?_ (Session.trail_mark _ _) fun _ _ => hpending
  rw [hframes]
  exact .enterValve ((Frame.hasStarted_eq_false_iff _ _).mp hnew)

private theorem leaveValve (h : Disciplined t) {f g : Frame} {outer : List Frame}
    (hframes : t.frames = g :: outer) (hcursor : g.cursor = some f.next)
    (failure : Option ValveFailure) : Disciplined (t.leaveValve f.next f.cursor failure) := by
  refine h.step (m := .leaveValve f.next failure) ?_ (Session.trail_mark _ _) nofun
  rw [Session.frames_leaveValve _ _ _ hframes, hframes]
  exact .leaveValve hcursor

private theorem change (h : Disciplined s) (hchange : Change s t) : Disciplined t := by
  rcases hchange.trail_eq with htrail | ⟨m, hm, rfl⟩
  · exact h.of_eq hchange.frames_eq htrail
  · refine h.step (.plain hm) (s.trail_mark m) fun i hi => ?_
    rw [hi] at hm
    cases hm

end Disciplined

namespace Conduct

def disciplined : Conduct where
  done s t := SameWalks s.frames t.frames ∧ (Disciplined s → Disciplined t)
  cut s t := Disciplined s → Disciplined t

theorem disciplined_covers : disciplined.Covers where
  refl s := ⟨.refl s.frames, id⟩
  trans h h' := ⟨h.1.trans h'.1, h'.2 ∘ h.2⟩
  cut_refl _ := id
  cut_trans h h' := h' ∘ h.2
  change h := ⟨.of_eq h.frames_eq, fun hs => hs.change h⟩
  walk {s t} p failure h := by
    obtain ⟨g, hg, -, hcursor, -⟩ := SameWalks.of_cons h.1
    exact ⟨balanced_covers.walk p failure h.1,
      fun hs => (h.2 (hs.enterPipeline p)).leavePipeline hg hcursor failure⟩
  walk_cut p h hs := h (hs.enterPipeline p)
  valve failure hpending hframes hnew h := by
    obtain ⟨g, hg, -, hcursor, -⟩ := SameWalks.of_cons h.1
    exact ⟨balanced_covers.valve failure hpending hframes hnew h.1,
      fun hs => (h.2 (hs.enterValve hpending hframes hnew)).leaveValve hg hcursor failure⟩
  valve_cut hpending hframes hnew h hs := h (hs.enterValve hpending hframes hnew)

end Conduct

end ValvePipeline
