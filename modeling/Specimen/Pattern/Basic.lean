import Specimen.Pattern.Emit
import Specimen.Pattern.Meaning
import Specimen.Pattern.Reader
import Specimen.Pattern.Search
import Specimen.Primitive.Error
import Specimen.Primitive.Leaf

/-!
# Patterns

A pattern is a text with its tree and its search. It draws texts from the tree and accepts every
text in which the search finds it. An engine says which texts are patterns.
-/

namespace Specimen

structure Pattern where
  source : String
  tree : Pattern.Tree
  /-- Whether the pattern occurs in a text. -/
  occursIn : String → Bool

namespace Pattern

/-- What reads patterns and what searches for them; either may refuse a text. -/
structure Engine where
  tree? : String → Option Tree
  search? : String → Option (String → Bool)

namespace Engine

def read (engine : Engine) (source : String) : Except PrimitiveError Pattern :=
  match engine.tree? source, engine.search? source with
  | some tree, some occursIn => .ok ⟨source, tree, occursIn⟩
  | _, _ => .error (.badPattern source)

/-- The tree of a pattern without Unicode property classes. -/
def ownTree? (source : String) : Option Tree := do
  let expr ← Expr.ofText? source
  let (tree, _) ← expr.tree? Flags.standard
  return tree

/-- The engine that programs run with. It finds a pattern where its tree occurs. -/
def own : Engine where
  tree? := ownTree?
  search? source := do
    let tree ← ownTree? source
    return fun text => tree.occursIn text.toList

end Engine

def leaf (pattern : Pattern) : Leaf where
  generate := ExceptT.lift do return .str (String.ofList (← pattern.tree.emit))
  validate value := some (match value with
    | .str text => pattern.occursIn text
    | _ => false)

end Pattern

end Specimen
