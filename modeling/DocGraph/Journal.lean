import DocGraph.Diagnostic
import DocGraph.Fault
import DocGraph.Fragment.Basic

/-!
# Journals

What a run reports while it goes on, in order: the stages it begins, the problems it passes over, and
notes on what it does to classes and members.
-/

namespace DocGraph

/-- One thing that a run reports. -/
inductive Event
  /-- A stage of the run begins with something. -/
  | stage (name subject : String)
  /-- A listener failed when it was told of a stage. -/
  | unheard (name subject : String)
  /-- Several files are read side by side. -/
  | pooled (files workers : Nat)
  | warning (d : Diagnostic)
  | classIgnored (cls : String)
  | ruleApplied (rule : String)
  | overrideApplied (cls target : String)
  | docInherited (member source : MemberRef)
  /-- All classes are resolved. -/
  | resolved (classes diagnostics : Nat)
  deriving DecidableEq, Repr

/-- What a run has reported. -/
abbrev Journal := List Event

namespace Journal

/-- The problem that an event reports. -/
def diagnostic? : Event → Option Diagnostic
  | .warning d => some d
  | _ => none

/-- The problems reported. -/
def diagnostics (j : Journal) : List Diagnostic := j.filterMap diagnostic?

/-- The stage that an event begins. -/
def stage? : Event → Option (String × String)
  | .stage name subject => some (name, subject)
  | _ => none

/-- The stages begun. -/
def stages (j : Journal) : List (String × String) := j.filterMap stage?

/-! ### Listeners -/

/-- What is told of the stages of a run. It may fail. -/
abbrev Listener := String → String → Except Fault Unit

/-- Tell a listener of an event if a stage begins. That it fails is noted and has no other effect. -/
def tell (listener : Listener) (e : Event) : Journal :=
  match stage? e with
  | none => [e]
  | some (name, subject) =>
    match listener name subject with
    | .ok _ => [e]
    | .error _ => [e, .unheard name subject]

/-- A journal after a listener was told of its stages. -/
def heardBy (listener : Listener) (j : Journal) : Journal := j.flatMap (tell listener)

/-! ### Lemmas -/

@[simp] theorem diagnostics_nil : diagnostics [] = [] := rfl

@[simp] theorem diagnostics_append (j k : Journal) :
    diagnostics (j ++ k) = diagnostics j ++ diagnostics k := by simp [diagnostics]

@[simp] theorem diagnostics_warnings (ds : List Diagnostic) :
    diagnostics (ds.map .warning) = ds := by
  induction ds with
  | nil => rfl
  | cons d ds ih => simpa [diagnostics, diagnostic?] using ih

theorem mem_diagnostics {j : Journal} {d : Diagnostic} :
    d ∈ diagnostics j ↔ .warning d ∈ j := by
  rw [diagnostics, List.mem_filterMap]
  constructor
  · rintro ⟨e, he, hd⟩
    cases e with
    | warning d' => cases hd; exact he
    | _ => cases hd
  · exact fun h => ⟨_, h, rfl⟩

theorem diagnostics_tell (listener : Listener) (e : Event) :
    diagnostics (tell listener e) = diagnostics [e] := by
  cases e with
  | stage name subject =>
    simp only [tell, stage?]
    cases listener name subject <;> rfl
  | _ => rfl

/-- A listener does not change which problems are reported. -/
@[simp] theorem diagnostics_heardBy (listener : Listener) (j : Journal) :
    diagnostics (heardBy listener j) = diagnostics j := by
  induction j with
  | nil => rfl
  | cons e j ih =>
    rw [heardBy, List.flatMap_cons, ← heardBy, diagnostics_append, diagnostics_tell, ih,
      ← diagnostics_append, List.singleton_append]

end Journal

end DocGraph
