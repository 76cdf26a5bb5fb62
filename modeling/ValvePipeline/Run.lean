import ValvePipeline.Session

/-!
Computations on a session. A computation answers or raises, or it is cut off because its allowance of
steps has run out; it leaves a session behind in every case. Loops without a bound may never end, so
only the allowance makes the engine total.

Each way to build a computation comes with the equation that says how it ends.
-/

set_option autoImplicit false
set_option relaxedAutoImplicit false

namespace ValvePipeline

inductive Ending (ε α : Type) where
  | answered (answer : α) (session : Session)
  | raised (what : ε) (session : Session)
  /-- Without either: the allowance was spent in this session. -/
  | exhausted (session : Session)

namespace Ending

variable {ε α : Type}

def session : Ending ε α → Session
  | .answered _ s => s
  | .raised _ s => s
  | .exhausted s => s

end Ending

structure Run (ε α : Type) where
  run : Session → Ending ε α

namespace Run

variable {ε δ α β : Type}

@[ext] theorem ext {x y : Run ε α} (h : ∀ s, x.run s = y.run s) : x = y := by
  cases x
  cases y
  congr
  exact funext h

instance : Monad (Run ε) where
  pure a := ⟨fun s => .answered a s⟩
  bind x f := ⟨fun s =>
    match x.run s with
    | .answered a s => (f a).run s
    | .raised e s => .raised e s
    | .exhausted s => .exhausted s⟩

def raise (e : ε) : Run ε α :=
  ⟨fun s => .raised e s⟩

def outOfSteps : Run ε α :=
  ⟨.exhausted⟩

def read (f : Session → α) : Run ε α :=
  ⟨fun s => .answered (f s) s⟩

def update (f : Session → Session) : Run ε Unit :=
  ⟨fun s => .answered () (f s)⟩

def act (f : Session → α × Session) : Run ε α :=
  ⟨fun s => .answered (f s).1 (f s).2⟩

/-- Changes the session after a computation, which may have raised something. -/
def afterwards (x : Run ε α) (f : Option ε → Session → Session) : Run ε α :=
  ⟨fun s =>
    match x.run s with
    | .answered a s => .answered a (f none s)
    | .raised e s => .raised e (f (some e) s)
    | .exhausted s => .exhausted s⟩

/-- Answers with what a computation answered or raised. -/
def attempt (x : Run ε α) : Run δ (Except ε α) :=
  ⟨fun s =>
    match x.run s with
    | .answered a s => .answered (.ok a) s
    | .raised e s => .answered (.error e) s
    | .exhausted s => .exhausted s⟩

def raising (x : Run ε α) (f : ε → δ) : Run δ α :=
  ⟨fun s =>
    match x.run s with
    | .answered a s => .answered a s
    | .raised e s => .raised (f e) s
    | .exhausted s => .exhausted s⟩

@[simp] theorem run_pure (a : α) (s : Session) : (pure a : Run ε α).run s = .answered a s := rfl

@[simp] theorem run_bind (x : Run ε α) (f : α → Run ε β) (s : Session) :
    (x >>= f).run s =
      match x.run s with
      | .answered a s => (f a).run s
      | .raised e s => .raised e s
      | .exhausted s => .exhausted s := rfl

@[simp] theorem run_raise (e : ε) (s : Session) : (raise e : Run ε α).run s = .raised e s := rfl

@[simp] theorem run_outOfSteps (s : Session) : (outOfSteps : Run ε α).run s = .exhausted s := rfl

@[simp] theorem run_read (f : Session → α) (s : Session) :
    (read f : Run ε α).run s = .answered (f s) s := rfl

@[simp] theorem run_update (f : Session → Session) (s : Session) :
    (update f : Run ε Unit).run s = .answered () (f s) := rfl

@[simp] theorem run_act (f : Session → α × Session) (s : Session) :
    (act f : Run ε α).run s = .answered (f s).1 (f s).2 := rfl

@[simp] theorem run_afterwards (x : Run ε α) (f : Option ε → Session → Session) (s : Session) :
    (x.afterwards f).run s =
      match x.run s with
      | .answered a s => .answered a (f none s)
      | .raised e s => .raised e (f (some e) s)
      | .exhausted s => .exhausted s := rfl

@[simp] theorem run_attempt (x : Run ε α) (s : Session) :
    (attempt x : Run δ (Except ε α)).run s =
      match x.run s with
      | .answered a s => .answered (.ok a) s
      | .raised e s => .answered (.error e) s
      | .exhausted s => .exhausted s := rfl

@[simp] theorem run_raising (x : Run ε α) (f : ε → δ) (s : Session) :
    (x.raising f).run s =
      match x.run s with
      | .answered a s => .answered a s
      | .raised e s => .raised (f e) s
      | .exhausted s => .exhausted s := rfl

instance : LawfulMonad (Run ε) :=
  LawfulMonad.mk'
    (Run ε)
    (fun x => by
      ext s
      show (x >>= pure).run s = _
      rw [run_bind]
      cases x.run s <;> rfl)
    (fun _ _ => rfl)
    (fun x f g => by
      ext s
      simp only [run_bind]
      cases x.run s <;> rfl)

end Run

end ValvePipeline
