import DocGraph.Catalog.Basic
import DocGraph.Value.Basic

/-!
# Framework rules

A framework rule corrects a catalog for one framework. It looks at its setting and at the catalog to
decide whether it has to do anything. One rule is known: listeners of events get the options they were
added with as a last parameter.
-/

namespace DocGraph

/-- A correction under a name; it gives nothing if it does not apply. -/
structure FrameworkRule where
  name : String
  amend : Catalog → Value → Option Catalog

namespace Catalog

/-- The parameter for the options of a listener. -/
def optionsParam : Param where
  name := "eOpts"
  type := "Object"
  doc := "The options object passed to Ext.util.Observable.addListener."

/-- An event with the parameter for options, if it lacks it. -/
def withOptions (f : Fragment) : Fragment :=
  if f.subject = .member .event && !f.params.any (·.name = optionsParam.name) then
    { f with params := f.params ++ [optionsParam] }
  else f

/-- A record whose events have the parameter for options. -/
def addOptions (r : Record) : Record := { r with members := r.members.map fun _ f => withOptions f }

/-- Whether listener options are wanted. Without a setting the base class of the framework tells. -/
def wantsOptions (c : Catalog) (setting : Value) : Bool :=
  match setting with
  | .scalar .null => c.contains "Ext.Base"
  | v => v.isTruthy

/-- Give all events the parameter for options. -/
def addListenerOptions (c : Catalog) (setting : Value) : Option Catalog :=
  if wantsOptions c setting then some (c.map fun _ r => addOptions r) else none

/-- Apply the rule given, if it is to be applied. -/
def amendBy (rule : FrameworkRule) (setting : Value) (e : Enriched) : Enriched :=
  match rule.amend e.classes setting with
  | none => e
  | some c => ⟨c, e.names ++ [rule.name], e.journal ++ [.ruleApplied rule.name]⟩

/-- Apply rules one after the other, each with the setting at its name. If there is any rule, the
settings have to be a mapping. -/
def applyRules (c : Catalog) (rules : List FrameworkRule) (settings : Value) :
    Except Fault Enriched :=
  if rules.isEmpty then .ok { classes := c }
  else do
    let ps ← settings.orEmpty.pairs?
    return rules.foldl (fun e rule => amendBy rule (Value.fieldOf ps rule.name) e) { classes := c }

end Catalog

/-- The rule for listener options. -/
def FrameworkRule.listenerOptions (name : String) : FrameworkRule :=
  ⟨name, Catalog.addListenerOptions⟩

/-- The known rules in the order in which they are applied. -/
def FrameworkRule.standard : List FrameworkRule := [.listenerOptions "ext4_events"]

end DocGraph
