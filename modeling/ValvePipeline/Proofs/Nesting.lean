import ValvePipeline.Proofs.WalkStack

/-!
What happens during a computation happens inside the walks in which it began: every moment that it
adds to the trail shows these walks, with others inside the innermost of them.
-/

set_option autoImplicit false
set_option relaxedAutoImplicit false

namespace ValvePipeline

/-- These frames are those of the walks or of walks inside the innermost one. -/
def Beneath (walks frames : List Frame) : Prop :=
  ∀ f outer, walks = f :: outer → ∃ inner g, frames = inner ++ g :: outer ∧ g.pipeline = f.pipeline

def Grows (s t : Session) : Prop :=
  ∃ moments, t.trail = s.trail ++ moments ∧ ∀ m ∈ moments, Beneath s.frames m.frames

namespace Beneath

variable {walks frames : List Frame}

theorem refl (walks : List Frame) : Beneath walks walks :=
  fun f _ h => ⟨[], f, h, rfl⟩

theorem of_sameWalks {other : List Frame} (hsame : SameWalks walks other)
    (h : Beneath other frames) : Beneath walks frames := by
  rintro f outer rfl
  obtain ⟨g, rfl, hg, -, -⟩ := hsame.of_cons
  obtain ⟨inner, g', hframes, hg'⟩ := h g outer rfl
  exact ⟨inner, g', hframes, hg'.trans hg⟩

theorem of_inner {f : Frame} (h : Beneath (f :: walks) frames) : Beneath walks frames := by
  rintro g outer rfl
  obtain ⟨inner, f', hframes, -⟩ := h f _ rfl
  exact ⟨inner ++ [f'], g, by simpa using hframes, rfl⟩

theorem length_lt {f : Frame} (h : Beneath (f :: walks) frames) :
    walks.length < frames.length := by
  obtain ⟨inner, g, rfl, -⟩ := h f walks rfl
  simp only [List.length_append, List.length_cons]
  omega

end Beneath

namespace Grows

variable {s t u : Session}

theorem of_trail_eq (h : t.trail = s.trail) : Grows s t :=
  ⟨[], h.trans (List.append_nil _).symm, nofun⟩

theorem of_moment {m : Moment} (h : t.trail = s.trail ++ [m]) (hm : Beneath s.frames m.frames) :
    Grows s t :=
  ⟨[m], h, fun _ hr => List.mem_singleton.mp hr ▸ hm⟩

theorem trans (h : Grows s t)
    (hinside : ∀ frames, Beneath t.frames frames → Beneath s.frames frames) (h' : Grows t u) :
    Grows s u := by
  obtain ⟨a, ha, hbeneath⟩ := h
  obtain ⟨b, hb, hbeneath'⟩ := h'
  have hjoined : u.trail = s.trail ++ (a ++ b) := by rw [hb, ha, List.append_assoc]
  refine ⟨a ++ b, hjoined, ?_⟩
  intro m hm
  rcases List.mem_append.mp hm with hm | hm
  · exact hbeneath m hm
  · exact hinside _ (hbeneath' m hm)

theorem concat {m : Moment} (h : Grows s t) (htrail : u.trail = t.trail ++ [m])
    (hm : Beneath s.frames m.frames) : Grows s u := by
  obtain ⟨a, ha, hbeneath⟩ := h
  have hjoined : u.trail = s.trail ++ (a ++ [m]) := by rw [htrail, ha, List.append_assoc]
  refine ⟨a ++ [m], hjoined, ?_⟩
  intro r hr
  rcases List.mem_append.mp hr with hr | hr
  · exact hbeneath r hr
  · exact List.mem_singleton.mp hr ▸ hm

theorem enterPipeline (s : Session) (p : Pipeline) (h : Grows (s.enterPipeline p) t) :
    Grows s t := by
  have entered : Grows s (s.enterPipeline p) :=
    .of_moment (Session.trail_mark _ _) fun f _ hf => ⟨[_], f, congrArg (_ :: ·) hf, rfl⟩
  exact entered.trans (fun _ => .of_inner) h

theorem enterValve {frame : Frame} {outer : List Frame} (hframes : s.frames = frame :: outer)
    {i : Nat} (h : Grows (s.enterValve frame outer i) t) : Grows s t := by
  have beneath {frames : List Frame}
      (hb : Beneath ({ frame with cursor := some i, reached := some i } :: outer) frames) :
      Beneath s.frames frames := by
    rw [hframes]
    rintro f outer' hf
    obtain ⟨rfl, rfl⟩ := List.cons.inj hf
    exact hb { frame with cursor := some i, reached := some i } _ rfl
  have entered : Grows s (s.enterValve frame outer i) :=
    .of_moment (Session.trail_mark _ _) (beneath (.refl _))
  exact entered.trans (fun _ => beneath) h

end Grows

def Conduct.nested : Conduct where
  done s t := SameWalks s.frames t.frames ∧ Grows s t
  cut s t := Grows s t

theorem Conduct.nested_covers : nested.Covers where
  refl s := ⟨.refl s.frames, .of_trail_eq rfl⟩
  trans h h' := ⟨h.1.trans h'.1, h.2.trans (fun _ => .of_sameWalks h.1) h'.2⟩
  cut_refl s := .of_trail_eq rfl
  cut_trans h h' := h.2.trans (fun _ => .of_sameWalks h.1) h'
  change {s t} h := by
    refine ⟨.of_eq h.frames_eq, ?_⟩
    rcases h.trail_eq with htrail | ⟨m, -, rfl⟩
    · exact .of_trail_eq htrail
    · exact .of_moment (s.trail_mark m) (.refl s.frames)
  walk {s t} p failure h := by
    have hleft : t.frames.tail = s.frames := SameWalks.tail_eq h.1
    refine ⟨.of_eq hleft, (h.2.enterPipeline s p).concat (Session.trail_mark _ _) ?_⟩
    exact hleft ▸ .refl _
  walk_cut {s t} p h := h.enterPipeline s p
  valve {s t frame outer} failure hpending hframes hnew h := by
    obtain ⟨g, hg, hp, -, -⟩ := SameWalks.of_cons h.1
    refine ⟨balanced_covers.valve failure hpending hframes hnew h.1,
      (h.2.enterValve hframes).concat (Session.trail_mark _ _) ?_⟩
    have hleft := Session.frames_leaveValve frame.next frame.cursor failure hg
    rintro f outer' hf
    obtain ⟨rfl, rfl⟩ := List.cons.inj (hframes.symm.trans hf)
    exact ⟨[], _, hleft, hp⟩
  valve_cut _ hframes _ h := h.enterValve hframes

end ValvePipeline
