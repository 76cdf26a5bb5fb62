import ValvePipeline.Proofs.Exchange
import ValvePipeline.Proofs.Nesting

/-!
Walks of two pipelines in which valves are exchanged. Two computations that begin in sessions that agree
end in the same way. Where the walk of a block is halted in the first run, and left by a break in the
second, they come together again at the boundary of the block.
-/

set_option autoImplicit false
set_option relaxedAutoImplicit false

namespace ValvePipeline

open Conduct (nested_covers)

theorem Run.KeepsTo.trail_grows {ε α : Type} {y : Run ε α} (h : y.KeepsTo .nested) (s : Session) :
    s.trail <+: (y.run s).session.trail := by
  have kept := h s
  have grown {t : Session} (hgrows : Grows s t) : s.trail <+: t.trail := by
    obtain ⟨moments, htrail, -⟩ := hgrows
    exact ⟨moments, htrail.symm⟩
  generalize y.run s = ending at kept ⊢
  cases ending with
  | answered a t => exact grown kept.2
  | raised e t => exact grown kept.2
  | exhausted t => exact grown kept

theorem Run.KeepsTo.grows_of_answered {ε α : Type} {y : Run ε α} (h : y.KeepsTo .nested)
    {s t : Session} {a : α} (ht : y.run s = .answered a t) : s.trail <+: t.trail := by
  have grown := h.trail_grows s
  rwa [ht] at grown

theorem Run.trail_grows_bind {ε α β : Type} (y : Run ε α) {f : α → Run ε β}
    (hf : ∀ a, (f a).KeepsTo .nested) (s : Session) :
    (y.run s).session.trail <+: ((y >>= f).run s).session.trail := by
  rw [run_bind]
  cases y.run s with
  | answered a t => exact (hf a).trail_grows t
  | raised e t => exact List.prefix_rfl
  | exhausted t => exact List.prefix_rfl

theorem Run.trail_grows_afterwards {ε α : Type} (y : Run ε α)
    {f : Option ε → Session → Session} (hf : ∀ failure u, u.trail <+: (f failure u).trail)
    (s : Session) : (y.run s).session.trail <+: ((y.afterwards f).run s).session.trail := by
  rw [run_afterwards]
  cases y.run s with
  | answered a t => exact hf none t
  | raised e t => exact hf (some e) t
  | exhausted t => exact List.prefix_rfl

/-- How two computations end that began in sessions that correspond. -/
inductive Ending.Corresponds {ε α β : Type} (x : Exchange) (scopes : List Bool)
    (post : α → β → Session → Session → Prop) : Ending ε α → Ending ε β → Prop
  | answered {a : α} {b : β} {s t : Session} : post a b s t →
    Corresponds x scopes post (.answered a s) (.answered b t)
  | raised {e : ε} {s t : Session} : s.Agrees x scopes t →
    Corresponds x scopes post (.raised e s) (.raised e t)
  | exhausted {inner : List Bool} {s t : Session} : s.Corresponds x inner t →
    Corresponds x scopes post (.exhausted s) (.exhausted t)
  | strayed {ending : Ending ε α} {ending' : Ending ε β} :
    x.strayed ending.session.trail ending'.session.trail →
    Corresponds x scopes post ending ending'

/-- From sessions that fit the one relation the computations end as the other one says. Both keep to the
nesting of walks. -/
structure Run.Corresponds {ε α β : Type} (x : Exchange) (scopes : List Bool)
    (pre : Session → Session → Prop) (post : α → β → Session → Session → Prop) (y : Run ε α)
    (z : Run ε β) : Prop where
  keeps : y.KeepsTo .nested
  keeps' : z.KeepsTo .nested
  ends {s t : Session} : pre s t → (y.run s).Corresponds x scopes post (z.run t)

def Same {α : Type} (x : Exchange) (scopes : List Bool) (a b : α) (s t : Session) : Prop :=
  b = a ∧ s.Agrees x scopes t

namespace Ending.Corresponds

variable {ε δ α β α' β' : Type} {x : Exchange} {scopes : List Bool} {s t : Session}

theorem mono {post post' : α → β → Session → Session → Prop} {ending : Ending ε α}
    {ending' : Ending ε β} (h : ending.Corresponds x scopes post ending')
    (hpost : ∀ a b s t, post a b s t → post' a b s t) :
    ending.Corresponds x scopes post' ending' := by
  cases h with
  | answered h => exact .answered (hpost _ _ _ _ h)
  | raised h => exact .raised h
  | exhausted h => exact .exhausted h
  | strayed h => exact .strayed h

/-- What is done in runs that have strayed does not bring them together again. -/
theorem of_strayed {post : α → β → Session → Session → Prop} {y : Run ε α} {z : Run ε β}
    (h : x.strayed s.trail t.trail) (hy : y.KeepsTo .nested) (hz : z.KeepsTo .nested) :
    (y.run s).Corresponds x scopes post (z.run t) :=
  .strayed (x.lasting h (hy.trail_grows s) (hz.trail_grows t))

theorem bind {mid : α → β → Session → Session → Prop} {post : α' → β' → Session → Session → Prop}
    {y : Run ε α} {z : Run ε β} {f : α → Run ε α'} {g : β → Run ε β'}
    (h : (y.run s).Corresponds x scopes mid (z.run t)) (hf : ∀ a, (f a).KeepsTo .nested)
    (hg : ∀ b, (g b).KeepsTo .nested)
    (hfg : ∀ a b s t, mid a b s t → ((f a).run s).Corresponds x scopes post ((g b).run t)) :
    ((y >>= f).run s).Corresponds x scopes post ((z >>= g).run t) := by
  have grown := Run.trail_grows_bind y hf s
  have grown' := Run.trail_grows_bind z hg t
  rw [Run.run_bind] at grown grown' ⊢
  rw [Run.run_bind]
  generalize y.run s = ending, z.run t = ending' at h grown grown' ⊢
  cases h with
  | answered h => exact hfg _ _ _ _ h
  | raised h => exact .raised h
  | exhausted h => exact .exhausted h
  | strayed h => exact .strayed (x.lasting h grown grown')

theorem ensuring {post : α → β → Session → Session → Prop} {ensured : β → Session → Prop}
    {ending : Ending ε α} {ending' : Ending ε β} (h : ending.Corresponds x scopes post ending')
    (hz : ∀ b u, ending' = .answered b u → ensured b u) :
    ending.Corresponds x scopes (fun a b s t => post a b s t ∧ ensured b t) ending' := by
  cases h with
  | answered h => exact .answered ⟨h, hz _ _ rfl⟩
  | raised h => exact .raised h
  | exhausted h => exact .exhausted h
  | strayed h => exact .strayed h

theorem ensuring_first {post : α → β → Session → Session → Prop} {ensured : α → Session → Prop}
    {ending : Ending ε α} {ending' : Ending ε β} (h : ending.Corresponds x scopes post ending')
    (hy : ∀ a u, ending = .answered a u → ensured a u) :
    ending.Corresponds x scopes (fun a b s t => post a b s t ∧ ensured a s) ending' := by
  cases h with
  | answered h => exact .answered ⟨h, hy _ _ rfl⟩
  | raised h => exact .raised h
  | exhausted h => exact .exhausted h
  | strayed h => exact .strayed h

theorem answered_or {post : α → β → Session → Session → Prop} {ending : Ending ε α}
    {ending' : Ending ε β} (h : ending.Corresponds x scopes post ending') :
    ending.Corresponds x scopes (fun _ _ _ _ => False) ending' ∨
      ∃ a b s t, ending = .answered a s ∧ ending' = .answered b t ∧ post a b s t := by
  cases h with
  | answered h => exact .inr ⟨_, _, _, _, rfl, rfl, h⟩
  | raised h => exact .inl (.raised h)
  | exhausted h => exact .inl (.exhausted h)
  | strayed h => exact .inl (.strayed h)

theorem afterwards {inner : List Bool} {post post' : α → β → Session → Session → Prop}
    {y : Run ε α} {z : Run ε β} {f g : Option ε → Session → Session}
    (h : (y.run s).Corresponds x inner post (z.run t)) (hf : ∀ failure u, u.trail <+: (f failure u).trail)
    (hg : ∀ failure u, u.trail <+: (g failure u).trail)
    (hanswered : ∀ a b u v, post a b u v → post' a b (f none u) (g none v))
    (hraised : ∀ e u v, u.Agrees x inner v → (f (some e) u).Agrees x scopes (g (some e) v)) :
    ((y.afterwards f).run s).Corresponds x scopes post' ((z.afterwards g).run t) := by
  have grown := Run.trail_grows_afterwards y hf s
  have grown' := Run.trail_grows_afterwards z hg t
  rw [Run.run_afterwards] at grown grown' ⊢
  rw [Run.run_afterwards]
  generalize y.run s = ending, z.run t = ending' at h grown grown' ⊢
  cases h with
  | answered h => exact .answered (hanswered _ _ _ _ h)
  | raised h => exact .raised (hraised _ _ _ h)
  | exhausted h => exact .exhausted h
  | strayed h => exact .strayed (x.lasting h grown grown')

end Ending.Corresponds

namespace Run.Corresponds

variable {ε δ α β α' β' : Type} {x : Exchange} {scopes : List Bool}
  {pre : Session → Session → Prop} {y : Run ε α} {z : Run ε β}

theorem pure {post : α → β → Session → Session → Prop} {a : α} {b : β}
    (h : ∀ s t, pre s t → post a b s t) :
    (Pure.pure a : Run ε α).Corresponds x scopes pre post (Pure.pure b) :=
  ⟨nested_covers.pure a, nested_covers.pure b, fun hpre => .answered (h _ _ hpre)⟩

theorem raise {post : α → β → Session → Session → Prop} (e : ε)
    (h : ∀ s t, pre s t → s.Agrees x scopes t) :
    (Run.raise e : Run ε α).Corresponds x scopes pre post (Run.raise e) :=
  ⟨nested_covers.raise e, nested_covers.raise e, fun hpre => .raised (h _ _ hpre)⟩

theorem mono {pre' : Session → Session → Prop} {post post' : α → β → Session → Session → Prop}
    (h : y.Corresponds x scopes pre post z) (hpre : ∀ s t, pre' s t → pre s t)
    (hpost : ∀ a b s t, post a b s t → post' a b s t) : y.Corresponds x scopes pre' post' z :=
  ⟨h.keeps, h.keeps', fun hs => (h.ends (hpre _ _ hs)).mono hpost⟩

theorem bind {mid : α → β → Session → Session → Prop}
    {post : α' → β' → Session → Session → Prop} {f : α → Run ε α'} {g : β → Run ε β'}
    (h : y.Corresponds x scopes pre mid z) (hf : ∀ a, (f a).KeepsTo .nested)
    (hg : ∀ b, (g b).KeepsTo .nested)
    (hfg : ∀ a b s t, mid a b s t → ((f a).run s).Corresponds x scopes post ((g b).run t)) :
    (y >>= f).Corresponds x scopes pre post (z >>= g) :=
  ⟨nested_covers.bind h.keeps hf, nested_covers.bind h.keeps' hg,
    fun hpre => (h.ends hpre).bind hf hg hfg⟩

theorem bind_same {mid : α → Session → Session → Prop} {post : α' → β' → Session → Session → Prop}
    {y z : Run ε α} {f : α → Run ε α'} {g : α → Run ε β'}
    (h : y.Corresponds x scopes pre (fun a b s t => b = a ∧ mid a s t) z)
    (hfg : ∀ a, (f a).Corresponds x scopes (mid a) post (g a)) :
    (y >>= f).Corresponds x scopes pre post (z >>= g) := by
  refine ⟨nested_covers.bind h.keeps fun a => (hfg a).keeps,
    nested_covers.bind h.keeps' fun a => (hfg a).keeps', fun hpre => ?_⟩
  refine (h.ends hpre).bind (fun a => (hfg a).keeps) (fun a => (hfg a).keeps') ?_
  rintro _ a s t ⟨rfl, hmid⟩
  exact (hfg a).ends hmid

theorem next {mid : Session → Session → Prop} {post : α' → β' → Session → Session → Prop}
    {y z : Run ε Unit} {f : Unit → Run ε α'} {g : Unit → Run ε β'}
    (h : y.Corresponds x scopes pre (fun _ _ => mid) z)
    (hfg : (f ()).Corresponds x scopes mid post (g ())) :
    (y >>= f).Corresponds x scopes pre post (z >>= g) :=
  h.bind (fun _ => hfg.keeps) (fun _ => hfg.keeps') fun _ _ _ _ => hfg.ends

theorem act {post : α → β → Session → Session → Prop} {f : Session → α × Session}
    {g : Session → β × Session} (hf : ∀ s, Conduct.nested.done s (f s).2)
    (hg : ∀ s, Conduct.nested.done s (g s).2)
    (h : ∀ s t, pre s t → post (f s).1 (g t).1 (f s).2 (g t).2) :
    (Run.act f : Run ε α).Corresponds x scopes pre post (Run.act g) :=
  ⟨hf, hg, fun hpre => .answered (h _ _ hpre)⟩

theorem update {post : Session → Session → Prop} {f g : Session → Session}
    (hf : ∀ s, Conduct.nested.done s (f s)) (hg : ∀ s, Conduct.nested.done s (g s))
    (h : ∀ s t, pre s t → post (f s) (g t)) :
    (Run.update f : Run ε Unit).Corresponds x scopes pre (fun _ _ => post) (Run.update g) :=
  ⟨hf, hg, fun hpre => .answered (h _ _ hpre)⟩

theorem raising {post : α → β → Session → Session → Prop} (h : y.Corresponds x scopes pre post z)
    (f : ε → δ) : (y.raising f).Corresponds x scopes pre post (z.raising f) := by
  refine ⟨h.keeps.raising f, h.keeps'.raising f, fun {s t} hpre => ?_⟩
  have ended := h.ends hpre
  rw [Run.run_raising, Run.run_raising]
  generalize y.run s = ending, z.run t = ending' at ended ⊢
  cases ended with
  | answered h => exact .answered h
  | raised h => exact .raised h
  | exhausted h => exact .exhausted h
  | strayed h => exact .strayed (by cases ending <;> cases ending' <;> exact h)

end Run.Corresponds

inductive Attempted {ε α β : Type} (x : Exchange) (scopes : List Bool)
    (post : α → β → Session → Session → Prop) :
    Except ε α → Except ε β → Session → Session → Prop
  | ok {a : α} {b : β} {s t : Session} : post a b s t → Attempted x scopes post (.ok a) (.ok b) s t
  | error {e : ε} {s t : Session} : s.Agrees x scopes t →
    Attempted x scopes post (.error e) (.error e) s t

theorem Run.Corresponds.attempt {ε δ α β : Type} {x : Exchange} {scopes : List Bool}
    {pre : Session → Session → Prop} {post : α → β → Session → Session → Prop} {y : Run ε α}
    {z : Run ε β} (h : y.Corresponds x scopes pre post z) :
    (Run.attempt y : Run δ _).Corresponds x scopes pre (Attempted x scopes post)
      (Run.attempt z) := by
  refine ⟨h.keeps.attempt, h.keeps'.attempt, fun {s t} hpre => ?_⟩
  have ended := h.ends hpre
  rw [Run.run_attempt, Run.run_attempt]
  generalize y.run s = ending, z.run t = ending' at ended ⊢
  cases ended with
  | answered h => exact .answered (.ok h)
  | raised h => exact .answered (.error h)
  | exhausted h => exact .exhausted h
  | strayed h => exact .strayed (by cases ending <;> cases ending' <;> exact h)

theorem Run.Corresponds.attempt_same {ε δ α : Type} {x : Exchange} {scopes : List Bool}
    {pre : Session → Session → Prop} {y z : Run ε α}
    (h : y.Corresponds x scopes pre (Same x scopes) z) :
    (Run.attempt y : Run δ _).Corresponds x scopes pre (Same x scopes) (Run.attempt z) := by
  refine h.attempt.mono (fun _ _ => id) fun a b s t hended => ?_
  cases hended with
  | ok hsame => exact ⟨congrArg Except.ok hsame.1, hsame.2⟩
  | error hagrees => exact ⟨rfl, hagrees⟩

namespace Trail

/-- The second moment is the request of a break by a valve that stands where one of the first run halts.
That one begins at the first moment, in the same turn. -/
def StandsFor (halts : Valve → Valve → Prop) (sofar : List Moment) (enter : Moment)
    (before : List Moment) (n : Moment) : Prop :=
  ∃ earlier begins inside v w, before = earlier ++ begins :: inside ∧
    (begun sofar).length = (begun earlier).length ∧ enter.begun? = some v ∧
    begins.begun? = some w ∧ halts v w ∧ (∀ m ∈ inside, Beneath begins.frames m.frames) ∧
    SameWalks begins.frames n.frames ∧ n.mark = .request (.level 0)

/-- In a walk of the block in these walks a valve has halted in the first run, for which the second one has
requested a break. -/
def HaltedAt (halts : Valve → Valve → Prop) (a b : List Moment) (block : Pipeline)
    (walks : List Frame) : Prop :=
  ∃ sofar enter inside before n after f, a = sofar ++ enter :: inside ∧ b = before ++ n :: after ∧
    StandsFor halts sofar enter before n ∧ enter.frames = f :: walks ∧ f.pipeline = block ∧
    ∀ m ∈ inside, walks.length < m.frames.length

namespace HaltedAt

variable {halts : Valve → Valve → Prop} {a b b' : List Moment} {block : Pipeline}
  {walks : List Frame}

theorem concat (h : HaltedAt halts a b block walks) {m : Moment}
    (hm : walks.length < m.frames.length) (hb : b <+: b') :
    HaltedAt halts (a ++ [m]) b' block walks := by
  obtain ⟨sofar, enter, inside, before, n, after, f, rfl, rfl, hstands, hframes, hblock, hinside⟩ := h
  obtain ⟨more, rfl⟩ := hb
  refine ⟨sofar, enter, inside ++ [m], before, n, after ++ more, f, by simp, by simp, hstands,
    hframes, hblock, List.forall_mem_append.mpr ⟨hinside, List.forall_mem_singleton.mpr hm⟩⟩

theorem mono (h : HaltedAt halts a b block walks) (hb : b <+: b') :
    HaltedAt halts a b' block walks := by
  obtain ⟨sofar, enter, inside, before, n, after, f, ha, rfl, hrest⟩ := h
  obtain ⟨more, rfl⟩ := hb
  exact ⟨sofar, enter, inside, before, n, after ++ more, f, ha, by simp, hrest⟩

theorem exists_halts (h : HaltedAt halts a b block walks) : ∃ v w, halts v w := by
  obtain ⟨_, _, _, _, _, _, _, -, -, ⟨_, _, _, v, w, -, -, -, -, hvw, -⟩, -⟩ := h
  exact ⟨v, w, hvw⟩

end HaltedAt

end Trail

namespace Session

theorem leaveValve_grows (s : Session) (i : Nat) (cursor : Option Nat)
    (failure : Option ValveFailure) : s.trail <+: (s.leaveValve i cursor failure).trail := by
  rw [trail_leaveValve]
  exact List.prefix_append ..

theorem leavePipeline_grows (s : Session) (failure : Option ValveFailure) :
    s.trail <+: (s.leavePipeline failure).trail := by
  rw [trail_leavePipeline]
  exact List.prefix_append ..

structure Halted (x : Exchange) (scopes : List Bool) (s t : Session) : Prop
    extends Corresponds x scopes s t where
  scope : scopes.head? = some true
  idle : s.pending = none
  broken : t.pending = some (.level 0)
  place : ∃ f outer, s.frames = f :: outer ∧
    Trail.HaltedAt x.halts s.trail t.trail f.pipeline outer

structure HaltedIn (x : Exchange) (scopes : List Bool) (p : Pipeline) (s t : Session) : Prop
    extends Corresponds x scopes s t where
  idle : s.pending = none
  broken : t.pending = some (.level 0)
  place : ∃ a r, s.trail = a ++ [r] ∧ Trail.HaltedAt x.halts a t.trail p s.frames

theorem HaltedIn.exists_halts {x : Exchange} {scopes : List Bool} {p : Pipeline} {s t : Session}
    (h : s.HaltedIn x scopes p t) : ∃ v w, x.halts v w := by
  obtain ⟨a, r, -, hplace⟩ := h.place
  exact hplace.exists_halts

def Tallies (x : Exchange) (scopes : List Bool) (s t : Session) : Prop :=
  s.Agrees x scopes t ∨ s.Halted x scopes t

structure Starting (x : Exchange) (scopes : List Bool) (v w : Valve) (s t : Session) : Prop
    extends Agrees x scopes s t where
  idle : s.pending = none
  first : s.Begins v
  second : t.Begins w

variable {x : Exchange} {scopes : List Bool} {s t : Session}

theorem Agrees.tallies (h : s.Agrees x scopes t) : s.Tallies x scopes t :=
  .inl h

theorem Tallies.agrees (h : s.Tallies x scopes t) (hscope : scopes.head? ≠ some true) :
    s.Agrees x scopes t := by
  rcases h with h | h
  · exact h
  · exact absurd h.scope hscope

theorem Corresponds.of_cons (h : s.Corresponds x scopes t) {f : Frame} {outer : List Frame}
    (hs : s.frames = f :: outer) : ∃ g others halting rest, t.frames = g :: others ∧
      scopes = halting :: rest ∧ f.pipeline.Exchanged x halting g.pipeline ∧
      g.cursor = f.cursor ∧ g.next = f.next ∧ g.hasStarted = f.hasStarted := by
  have hframes := h.frames
  rw [hs] at hframes
  generalize ht : t.frames = frames at hframes
  cases hframes with
  | @cons halting rest _ g _ others hpipeline hcursor hreached _ =>
    refine ⟨g, others, halting, rest, rfl, rfl, hpipeline, hcursor, ?_, ?_⟩
    · rw [Frame.next, Frame.next, hcursor]
    · funext i
      rw [Frame.hasStarted, Frame.hasStarted, hreached]

theorem Agrees.leaveValve (h : s.Agrees x scopes t) (i : Nat) (cursor : Option Nat)
    (failure : Option ValveFailure) :
    (s.leaveValve i cursor failure).Agrees x scopes (t.leaveValve i cursor failure) :=
  ⟨h.toCorresponds.leaveValve i cursor failure, h.pending⟩

theorem Tallies.leaveValve (h : s.Tallies x scopes t) (i : Nat) (cursor : Option Nat)
    (failure : Option ValveFailure) :
    (s.leaveValve i cursor failure).Tallies x scopes (t.leaveValve i cursor failure) := by
  rcases h with h | h
  · exact .inl (h.leaveValve i cursor failure)
  · obtain ⟨f, outer, hs, hplace⟩ := h.place
    refine .inr ⟨h.toCorresponds.leaveValve i cursor failure, h.scope, h.idle, h.broken,
      { f with cursor }, outer, frames_leaveValve i cursor failure hs, ?_⟩
    rw [s.trail_leaveValve]
    refine hplace.concat ?_ (t.leaveValve_grows i cursor failure)
    simp [frames_leaveValve i cursor failure hs]

end Session

structure Starter.Exchanges (x : Exchange) (start : Starter) : Prop where
  keeps (v : Valve) : (start v).KeepsTo .nested
  along {halting : Bool} {scopes : List Bool} {v w : Valve} : v.Exchanged x halting w →
    (start v).Corresponds x (halting :: scopes) (Session.Starting x (halting :: scopes) v w)
      (fun _ _ => Session.Tallies x (halting :: scopes)) (start w)

namespace Walk

variable {x : Exchange} {start : Starter} {scopes : List Bool}

theorem proceed_corresponds (hstart : start.Exchanges x) :
    (proceed start).Corresponds x scopes (Session.Agrees x scopes)
      (fun _ _ => Session.Tallies x scopes) (proceed start) := by
  have hkeeps := proceed_keepsTo nested_covers hstart.keeps
  refine ⟨hkeeps, hkeeps, fun {s t} h => ?_⟩
  have proceeding := proceed_proceeding start s
  generalize (proceed start).run s = ending at proceeding ⊢
  cases proceeding with
  | waits hpending =>
    rw [run_proceed_of_pending start (h.pending ▸ hpending)]
    exact .answered h.tallies
  | outside hpending hframes =>
    have hnil : t.frames = [] := by
      have := h.frames.length_eq
      rw [hframes] at this
      exact List.length_eq_zero_iff.mp this
    rw [run_proceed_of_nil start (h.pending.trans hpending) hnil]
    exact .answered (.inl ⟨h.log _ _ rfl, h.pending⟩)
  | again hpending hframes hnew =>
    obtain ⟨g, others, halting, rest, ht, -, hpipeline, -, hnext, hstarted⟩ :=
      h.of_cons hframes
    rw [run_proceed_of_started start (h.pending.trans hpending) ht (by rw [hstarted, hnext, hnew])]
    refine .answered (.inl ⟨h.log _ _ ?_, h.pending⟩)
    rw [hnext, Pipeline.displayName, hpipeline.label_eq, Pipeline.displayName]
  | ends hpending hframes hnew hvalve =>
    obtain ⟨g, others, halting, rest, ht, -, hpipeline, -, hnext, hstarted⟩ :=
      h.of_cons hframes
    rw [run_proceed_of_end start (h.pending.trans hpending) ht (by rw [hstarted, hnext, hnew])
      (hnext ▸ hpipeline.getElem?_eq_none hvalve)]
    exact .answered h.tallies
  | @starts f outer v hpending hframes hnew hvalve =>
    obtain ⟨g, others, halting, rest, ht, rfl, hpipeline, hcursor, hnext, hstarted⟩ :=
      h.of_cons hframes
    obtain ⟨w, hw, hexchanged⟩ := hpipeline.getElem?_eq_some hvalve
    rw [run_proceed_of_valve start (h.pending.trans hpending) ht (by rw [hstarted, hnext, hnew])
      (hnext ▸ hw), hnext, hcursor, Run.run_afterwards, Run.run_afterwards]
    have starting : Session.Starting x (halting :: rest) v w (s.enterValve f outer f.next)
        (t.enterValve g others f.next) :=
      ⟨⟨h.enterValve hframes ht hvalve hw, h.pending⟩, hpending,
        Session.begins_enterValve hvalve s outer, Session.begins_enterValve hw t others⟩
    exact ((hstart.along hexchanged).ends starting).afterwards
      (fun failure u => u.leaveValve_grows _ _ failure)
      (fun failure u => u.leaveValve_grows _ _ failure) (fun _ _ _ _ h => h.leaveValve ..)
      fun _ _ _ h => h.leaveValve ..

inductive Walked (x : Exchange) (scopes : List Bool) (halting : Bool) (p : Pipeline)
    (a b : WalkEnd) (s t : Session) : Prop
  | same : b = a → (a = .completed → s.pending = none) → s.Agrees x scopes t →
    Walked x scopes halting p a b s t
  | halted : halting = true → a = .completed → b = .unwound → s.HaltedIn x scopes p t →
    Walked x scopes halting p a b s t

theorem runPipeline_corresponds (hstart : start.Exchanges x) {halting : Bool} {p q : Pipeline}
    (hpq : p.Exchanged x halting q) :
    (runPipeline start p).Corresponds x scopes (Session.Agrees x scopes)
      (Walked x scopes halting p) (runPipeline start q) := by
  refine ⟨runPipeline_keepsTo nested_covers hstart.keeps p,
    runPipeline_keepsTo nested_covers hstart.keeps q, fun {s t} h => ?_⟩
  have entered : (s.enterPipeline p).Agrees x (halting :: scopes) (t.enterPipeline q) :=
    ⟨h.enterPipeline hpq, h.pending⟩
  have inside (a : Unit) (u : Session)
      (hu : (proceed start).run (s.enterPipeline p) = .answered a u) :
      ∃ f, u.frames = f :: s.frames ∧ f.pipeline = p := by
    obtain ⟨f, hf, hp, -⟩ :=
      ((proceed_keepsTo nested_covers hstart.keeps).answered hu).1.of_cons
    exact ⟨f, hf, hp⟩
  have left : ((Run.afterwards (proceed start) Session.leavePipeline).run
      (s.enterPipeline p)).Corresponds x scopes
      (fun _ _ u v => u.Agrees x scopes v ∨ halting = true ∧ u.HaltedIn x scopes p v)
      ((Run.afterwards (proceed start) Session.leavePipeline).run (t.enterPipeline q)) := by
    refine (((proceed_corresponds hstart).ends entered).ensuring_first inside).afterwards
      (fun failure u => u.leavePipeline_grows failure)
      (fun failure u => u.leavePipeline_grows failure) ?_
      fun _ _ _ h => ⟨h.leavePipeline _, h.pending⟩
    rintro _ _ u v ⟨hagrees | hhalted, f, hu, rfl⟩
    · exact .inl ⟨hagrees.leavePipeline none, hagrees.pending⟩
    · obtain ⟨f', outer, hu', hplace⟩ := hhalted.place
      obtain ⟨rfl, rfl⟩ := List.cons.inj (hu.symm.trans hu')
      have hleft : (u.leavePipeline none).frames = s.frames := congrArg List.tail hu
      refine .inr ⟨Option.some.inj hhalted.scope, hhalted.leavePipeline none, hhalted.idle,
        hhalted.broken, u.trail, _, u.trail_leavePipeline none, ?_⟩
      rw [hleft]
      exact hplace.mono (v.leavePipeline_grows none)
  refine Ending.Corresponds.bind (s := s.enterPipeline p) (t := t.enterPipeline q) left
    (fun _ => nested_covers.read _) (fun _ => nested_covers.read _) ?_
  rintro _ _ u v (hagrees | ⟨hmay, hhalted⟩)
  · refine .answered (.same (by simp only [hagrees.pending]) (fun hended => ?_) hagrees)
    cases hu : u.pending with
    | none => rfl
    | some signal => simp [hu] at hended
  · refine .answered (.halted hmay ?_ ?_ hhalted)
    · simp [hhalted.idle]
    · simp [hhalted.broken]

/-- What the boundaries of two blocks have settled: the same, but that one may have absorbed the break in
place of which the other walk was halted. -/
structure Settled (x : Exchange) (scopes : List Bool) (halting : Bool) (a b : Settlement)
    (s t : Session) : Prop extends Session.Agrees x scopes s t where
  alike : b = a ∨ halting = true ∧ a = .completed ∧ b = .absorbed

theorem settle_corresponds {ε : Type} (label : Option String) :
    (settle label : Run ε Settlement).Corresponds x scopes (Session.Agrees x scopes)
      (Same x scopes) (settle label) :=
  .act (fun s => nested_covers.settle s label) (fun s => nested_covers.settle s label)
    fun _ _ h => (Session.Agrees.lasting x scopes).settle h h.pending label

theorem settled_of_halted {ε : Type} (hx : x.AdmitsBreaks) {s t : Session}
    (h : s.Corresponds x scopes t) (hs : s.pending = none) (ht : t.pending = some (.level 0))
    (label : Option String) :
    ∃ u, (settle label : Run ε Settlement).run t = .answered .absorbed u ∧ s.Agrees x scopes u := by
  refine ⟨_, ?_, h.addAbsorb hx hs label⟩
  rw [settle, Run.run_act, Session.settle_of_absorb ht rfl]

theorem runBoundary_corresponds (hx : x.Breaks)
    (hstart : start.Exchanges x) {halting : Bool} {p q : Pipeline}
    (hpq : p.Exchanged x halting q) :
    (runBoundary (runPipeline start) p).Corresponds x scopes (Session.Agrees x scopes)
      (Settled x scopes halting) (runBoundary (runPipeline start) q) := by
  have hsettle (label : Option String) := settle_keepsTo (ε := ValveFailure)
    nested_covers.toContinues label
  refine (runPipeline_corresponds hstart hpq).bind (fun _ => hsettle p.label)
    (fun _ => hsettle q.label) ?_
  intro ended ended' s t hwalked
  rw [hpq.label_eq]
  cases hwalked with
  | same _ _ hagrees =>
    refine ((settle_corresponds p.label).ends hagrees).mono fun a b u v hsame => ?_
    exact ⟨hsame.2, .inl hsame.1⟩
  | halted hmay _ _ hhalted =>
    obtain ⟨v, w, hvw⟩ := hhalted.exists_halts
    obtain ⟨u, hu, hagrees⟩ := settled_of_halted (ε := ValveFailure) (hx hvw)
      hhalted.toCorresponds hhalted.idle hhalted.broken p.label
    rw [hu, settle, Run.run_act, Session.settle_of_none hhalted.idle]
    exact .answered ⟨hagrees, .inr ⟨hmay, rfl, rfl⟩⟩

theorem runPipeline_same (hstart : start.Exchanges x) {p q : Pipeline}
    (hpq : p.Exchanged x false q) :
    (runPipeline start p).Corresponds x scopes (Session.Agrees x scopes) (Same x scopes)
      (runPipeline start q) := by
  refine (runPipeline_corresponds hstart hpq).mono (fun _ _ => id) fun a b s t h => ?_
  cases h with
  | same hsame _ hagrees => exact ⟨hsame, hagrees⟩
  | halted hmay _ _ _ => cases hmay

theorem runBoundary_same (hx : x.Breaks) (hstart : start.Exchanges x) {p q : Pipeline}
    (hpq : p.Exchanged x false q) :
    (runBoundary (runPipeline start) p).Corresponds x scopes (Session.Agrees x scopes)
      (Same x scopes) (runBoundary (runPipeline start) q) := by
  refine (runBoundary_corresponds hx hstart hpq).mono (fun _ _ => id) fun a b s t h => ?_
  rcases h.alike with hsame | ⟨hmay, -⟩
  · exact ⟨hsame, h.toAgrees⟩
  · cases hmay

theorem resumeAfter_corresponds (hstart : start.Exchanges x) {a b : Settlement}
    (hab : a.goesOn = b.goesOn) :
    (resumeAfter start a).Corresponds x scopes (Session.Agrees x scopes)
      (fun _ _ => Session.Tallies x scopes) (resumeAfter start b) := by
  unfold resumeAfter
  rw [hab]
  split
  · exact proceed_corresponds hstart
  · exact .pure fun _ _ h => h.tallies

/-- What follows the boundary that absorbs a break goes as what follows a halt. -/
theorem absorbed_corresponds (hx : x.AdmitsBreaks) (hstart : start.Exchanges x) {s t : Session}
    (h : s.Corresponds x scopes t) (hs : s.pending = none) (ht : t.pending = some (.level 0))
    (label : Option String) :
    ((proceed start).run s).Corresponds x scopes (fun _ _ => Session.Tallies x scopes)
      ((settle label >>= resumeAfter start).run t) := by
  obtain ⟨u, hu, hagrees⟩ := settled_of_halted (ε := ValveFailure) hx h hs ht label
  rw [Run.run_bind, hu]
  exact (proceed_corresponds hstart).ends hagrees

theorem settle_resume_keepsTo {c : Conduct} (hc : c.Covers) (hstart : ∀ v, (start v).KeepsTo c)
    (label : Option String) : (settle label >>= resumeAfter start).KeepsTo c :=
  hc.bind (settle_keepsTo hc.toContinues label) (resumeAfter_keepsTo hc hstart)

theorem settle_resume_corresponds (hstart : start.Exchanges x) (label : Option String) :
    (settle label >>= resumeAfter start).Corresponds x scopes (Session.Agrees x scopes)
      (fun _ _ => Session.Tallies x scopes) (settle label >>= resumeAfter start) :=
  (settle_corresponds label).bind_same fun _ => resumeAfter_corresponds hstart rfl

theorem runBlock_corresponds (hx : x.Breaks)
    (hstart : start.Exchanges x) {p q : Pipeline} (hpq : Block.Exchanged x p q) :
    (runBlock start p).Corresponds x scopes (Session.Agrees x scopes)
      (fun _ _ => Session.Tallies x scopes) (runBlock start q) := by
  cases hpq with
  | intro hpq =>
    have hkeeps := resumeAfter_keepsTo nested_covers hstart.keeps
    refine (runBoundary_corresponds hx hstart hpq).bind hkeeps hkeeps ?_
    intro a b s t hsettled
    refine (resumeAfter_corresponds hstart ?_).ends hsettled.toAgrees
    rcases hsettled.alike with rfl | ⟨-, rfl, rfl⟩ <;> rfl

end Walk

end ValvePipeline
