import ScriptKinds.Grammar.Script
import ScriptKinds.Inference.WriteSite
import ScriptKinds.Scope.Binding

/-!
Inference of the kinds of symbols.

Inference goes along the write sites of a script once, in order, and adds the
contribution of each to the kinds of its target.  A contribution that is the
value of an expression is taken as it is when the site takes effect: what the
expression's names gain later is not added.
-/

namespace ScriptKinds

namespace Model

/-- The kinds that a contribution adds in view of a model. -/
def contributed (model : Model) : Contribution → KindSet
  | .kind kind => .singleton kind
  | .value value => classify model value

/-- Adds what a write site contributes to the symbol of its target. -/
def write (model : Model) (site : WriteSite) : Model :=
  model.widen site.target (model.contributed site.contribution)

/-- Lets write sites take effect in turn. -/
def writeAll (model : Model) (sites : List WriteSite) : Model :=
  sites.foldl write model

/-- Lets the write sites of a statement take effect. -/
def visit (model : Model) (stmt : Stmt) : Model :=
  model.writeAll stmt.writes

/-- The model of a script with the kinds of its symbols. -/
def ofScript (root : Block) : Model :=
  (bind root).writeAll root.writes

/-- The model of the script in a source. -/
def ofSource (file source : String) : Except Failure Model :=
  (Script.ofSource file source).map fun script => ofScript script.root

end Model

end ScriptKinds
