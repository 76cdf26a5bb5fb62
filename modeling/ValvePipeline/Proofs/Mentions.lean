import ValvePipeline.Proofs.UnwindingLaw

/-!
The names that a pipeline mentions: those that its conditions look up, and those whose values it records.
A condition without tests of one's own answers by the values of its names, and so do its notes.
-/

set_option autoImplicit false
set_option relaxedAutoImplicit false

namespace ValvePipeline

namespace Test

def key : Test → String
  | .truthy key _ => key
  | .compare key _ _ => key

theorem holds_congr {t : Test} {a b : Attributes} (h : b.get? t.key = a.get? t.key) :
    t.holds b = t.holds a := by
  cases t with
  | truthy key negated =>
    have hkey : b.get? key = a.get? key := h
    simp only [holds, hkey]
  | compare key op literal =>
    have hkey : b.get? key = a.get? key := h
    simp only [holds, hkey]

end Test

namespace Condition

mutual

def keys : Condition → List String
  | .constant _ => []
  | .isSet key => [key]
  | .equals key _ => [key]
  | .isTrue key => [key]
  | .expression e => [e.test.key]
  | .not c => keys c
  | .all cs => keysOfEach cs
  | .any cs => keysOfEach cs
  | .named _ c => keys c
  | .custom _ _ => []

def keysOfEach : List Condition → List String
  | [] => []
  | c :: cs => keys c ++ keysOfEach cs

end

/-- The condition is made of constants, attributes and expressions: there is no test of one's own in it. -/
inductive IsDeclared : Condition → Prop
  | constant {answer : Bool} : IsDeclared (.constant answer)
  | isSet {key : String} : IsDeclared (.isSet key)
  | equals {key : String} {value : Json} : IsDeclared (.equals key value)
  | isTrue {key : String} : IsDeclared (.isTrue key)
  | expression {e : Expression} : IsDeclared (.expression e)
  | not {c : Condition} : IsDeclared c → IsDeclared (.not c)
  | all {cs : List Condition} : (∀ c ∈ cs, IsDeclared c) → IsDeclared (.all cs)
  | any {cs : List Condition} : (∀ c ∈ cs, IsDeclared c) → IsDeclared (.any cs)
  | named {name : String} {c : Condition} : IsDeclared c → IsDeclared (.named name c)

theorem mem_keysOfEach {cs : List Condition} {c : Condition} (hc : c ∈ cs) {key : String}
    (hkey : key ∈ c.keys) : key ∈ keysOfEach cs := by
  induction cs with
  | nil => cases hc
  | cons other cs ih =>
    rw [keysOfEach, List.mem_append]
    rcases List.mem_cons.mp hc with rfl | hrest
    · exact .inl hkey
    · exact .inr (ih hrest)

variable {a b : Attributes}

theorem evalAll_congr {cs : List Condition} (h : ∀ c ∈ cs, c.eval b = c.eval a) :
    evalAll b cs = evalAll a cs := by
  induction cs with
  | nil => rfl
  | cons c cs ih =>
    have rest : evalAll b cs = evalAll a cs := ih fun d hd => h d (List.mem_cons_of_mem _ hd)
    simp only [evalAll, h c List.mem_cons_self, rest]

theorem evalAny_congr {cs : List Condition} (h : ∀ c ∈ cs, c.eval b = c.eval a) :
    evalAny b cs = evalAny a cs := by
  induction cs with
  | nil => rfl
  | cons c cs ih =>
    have rest : evalAny b cs = evalAny a cs := ih fun d hd => h d (List.mem_cons_of_mem _ hd)
    simp only [evalAny, h c List.mem_cons_self, rest]

/-- The answer and the notes of a condition come from the values of its names. -/
theorem IsDeclared.eval_congr {c : Condition} (h : c.IsDeclared)
    (hab : ∀ key ∈ c.keys, b.get? key = a.get? key) : c.eval b = c.eval a := by
  induction h with
  | constant => rfl
  | @isSet key =>
    have hkey : b.get? key = a.get? key := hab key List.mem_cons_self
    simp only [eval, Attributes.has, hkey]
  | @equals key value =>
    have hkey : b.get? key = a.get? key := hab key List.mem_cons_self
    simp only [eval, hkey]
  | @isTrue key =>
    have hkey : b.get? key = a.get? key := hab key List.mem_cons_self
    simp only [eval, hkey]
  | @expression e =>
    have hkey : b.get? e.test.key = a.get? e.test.key := hab _ List.mem_cons_self
    simp only [eval, Expression.holds, Test.holds_congr hkey]
  | not _ ih => simp only [eval, ih hab]
  | all _ ih => exact evalAll_congr fun c hc => ih c hc fun key hkey => hab key (mem_keysOfEach hc hkey)
  | any _ ih => exact evalAny_congr fun c hc => ih c hc fun key hkey => hab key (mem_keysOfEach hc hkey)
  | named _ ih => simp only [eval, ih hab]

end Condition

namespace Valve

def keys (v : Valve) : List String :=
  v.conditions.flatMap Condition.keys ++ v.counter?.toList

/-- No condition of the valve has a test of one's own in it. -/
def IsDeclared (v : Valve) : Prop :=
  ∀ c ∈ v.conditions, c.IsDeclared

structure Reads (known : String → Prop) (v : Valve) : Prop where
  declared : v.IsDeclared
  keys : ∀ key ∈ v.keys, known key

namespace Reads

variable {known : String → Prop} {v : Valve}

theorem condition (h : v.Reads known) {c : Condition} (hc : c ∈ v.conditions) :
    c.IsDeclared ∧ ∀ key ∈ c.keys, known key := by
  refine ⟨h.declared c hc, fun key hkey => h.keys key ?_⟩
  exact List.mem_append_left _ (List.mem_flatMap.mpr ⟨c, hc, hkey⟩)

theorem counter (h : v.Reads known) : ∀ key ∈ v.counter?, known key := by
  intro key hkey
  exact h.keys key (List.mem_append_right _ (Option.mem_toList.mpr hkey))

end Reads

end Valve

mutual

/-- A condition or a counter of the pipeline, however deep, mentions the name. -/
inductive Pipeline.Mentions (key : String) : Pipeline → Prop
  | intro {p : Pipeline} {v : Valve} : v ∈ p.valves → Valve.Mentions key v → Pipeline.Mentions key p

inductive Valve.Mentions (key : String) : Valve → Prop
  | own {v : Valve} : key ∈ v.keys → Valve.Mentions key v
  | child {v : Valve} {p : Pipeline} : p ∈ v.children → Pipeline.Mentions key p →
    Valve.Mentions key v

end

variable {known : String → Prop}

mutual

theorem Pipeline.BuiltOf.reads : ∀ {p : Pipeline}, p.BuiltOf Valve.IsDeclared →
    (∀ key, p.Mentions key → known key) → p.BuiltOf (Valve.Reads known)
  | _, .intro hvalves, hknown => .intro fun v hv =>
    Valve.BuiltOf.reads (hvalves v hv) fun key hkey => hknown key (.intro hv hkey)

theorem Valve.BuiltOf.reads : ∀ {v : Valve}, v.BuiltOf Valve.IsDeclared →
    (∀ key, v.Mentions key → known key) → v.BuiltOf (Valve.Reads known)
  | _, .intro hscript hdeclared hchildren, hknown =>
    .intro hscript ⟨hdeclared, fun key hkey => hknown key (.own hkey)⟩ fun p hp =>
      Pipeline.BuiltOf.reads (hchildren p hp) fun key hkey => hknown key (.child hp hkey)

end

end ValvePipeline
