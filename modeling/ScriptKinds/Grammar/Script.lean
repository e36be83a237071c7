import ScriptKinds.Grammar.Statement
import ScriptKinds.Token.OfSource

/-!
Scripts, and the knot that ties expressions, statements and patterns together.

The nesting of constructs is bounded by the number of tokens, because a
construct passes at least one token before it reads another of its kind.
-/

namespace ScriptKinds

namespace Grammar

/-- Readers of expressions, statements and patterns that nest at most to a
depth. -/
def nonterminals : Nat → Nonterminals
  | 0 => ⟨fun _ => Reader.exhausted, Reader.exhausted, Reader.exhausted⟩
  | depth + 1 =>
      let inner := nonterminals depth
      ⟨readExpr inner, readStmt inner, readPattern inner⟩

/-- A depth that no nesting in a stream of tokens exceeds. -/
def depthOf (tokens : TokenStream) : Nat :=
  2 * tokens.size + 2

/-- Runs a reader with nonterminals nested as deeply as any tokens can need. -/
def knot {α : Type} (reader : Nonterminals → Reader α) : Reader α := fun input =>
  reader (nonterminals (depthOf input.tokens)) input

/-- The statements up to the end of the text, as a block with the number 0. -/
def readScript (nt : Nonterminals) : Reader Block := do
  let body ← Reader.collectUntil (return !(← Reader.hasTokens)) (return [← nt.stmt])
  return ⟨0, body, ⟨0, ← Reader.offset⟩⟩

end Grammar

/-- A script with the first number that none of its nodes has. -/
structure Script where
  root : Block
  nextId : NodeId

namespace Script

/-- The script that some tokens spell. -/
def ofTokens (file : String) (tokens : List Token) : Except Failure Script :=
  let input : Input := ⟨.ofList tokens, file, .script⟩
  match Grammar.knot Grammar.readScript input .start with
  | .ok root progress => .ok ⟨root, progress.nextId⟩
  | .error failure _ => .error failure

def ofSource (file source : String) : Except Failure Script :=
  match Token.ofSource file source with
  | .ok tokens => ofTokens file tokens
  | .error fault => .error (.fault fault)

end Script

end ScriptKinds
